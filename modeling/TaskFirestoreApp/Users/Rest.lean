import TaskFirestoreApp.Users.Accounts
import TaskFirestoreApp.Users.Screens
import TaskFirestoreApp.Library.Turns

/-!
# The users come to rest

Nothing listens to Users, and the load of a login screen writes one document at most: left to
themselves the devices come to rest. What a device has found is stored or under way from the
device itself, so at rest every record that is shown is stored. A sign-in that Auth has granted
then is complete: the user has a record, on the server and in `userLists`, and the login screen
that asked is gone.
-/

namespace Users

open Backend UserInfoManager TaskLoginViewController

variable {D : Type}

/-! ### Rest -/

/-- A path of one segment that is none of the given ones. -/
theorem exists_fresh (ids : List String) :
  ∃ s : String, IsSegment s ∧ s ∉ ids
  := by
  obtain ⟨n, hn⟩ : ∃ n, ∀ s ∈ ids, s.length < n := by
    use (ids.map String.length).sum + 1
    intro s hs
    apply Nat.lt_succ_of_le
    apply List.le_sum_of_mem
    apply List.mem_map_of_mem hs
  have hlength : (String.ofList (List.replicate (n + 1) 'a')).length = n + 1 := by simp
  refine ⟨String.ofList (List.replicate (n + 1) 'a'), ⟨?_, ?_⟩, ?_⟩
  · intro hempty
    rw [hempty] at hlength
    cases hlength
  · simp
  · intro hmem
    have := hn _ hmem
    omega

theorem responsive_program :
  program.Responsive 1
  where
  callback {q c x app app' cs} h := by
    cases q with
    | home =>
        obtain rfl := (Prod.mk.inj (Option.some.inj h.symm)).2
        exact ⟨Nat.zero_le _, rfl, rfl⟩
    | login number =>
        obtain ⟨login, heq⟩ := completed_eq number c x app
        have h' : readUserInfoFromFirestore.completed number c x app = some (app', cs) := h
        rw [heq] at h'
        split_ifs at h'
        · obtain rfl := (Prod.mk.inj (Option.some.inj h'.symm)).2
          exact ⟨Nat.zero_le _, rfl, rfl⟩
        · obtain rfl := (Prod.mk.inj (Option.some.inj h'.symm)).2
          exact ⟨le_rfl, rfl, rfl⟩
  failed {q app app' cs} h := by
    cases q with
    | home | login number =>
        obtain rfl := (Prod.mk.inj (Option.some.inj h.symm)).2
        exact ⟨⟨Nat.zero_le _, rfl, rfl⟩, rfl⟩
  listener {tag} := tag.elim
  input q c app ids := by
    obtain ⟨s, hsegment, hnot⟩ := exists_fresh ids
    refine ⟨⟨s, 0, 0, hsegment⟩, ?_⟩
    intro app' cs h i hi
    have hdrawn : i = s := by
      cases q with
      | home =>
          obtain rfl := (Prod.mk.inj (Option.some.inj h.symm)).2
          cases hi
      | login number =>
          obtain ⟨login, heq⟩ := completed_eq number c ⟨s, 0, 0, hsegment⟩ app
          have h' : readUserInfoFromFirestore.completed number c ⟨s, 0, 0, hsegment⟩ app
              = some (app', cs) := h
          rw [heq] at h'
          split_ifs at h'
          · obtain rfl := (Prod.mk.inj (Option.some.inj h'.symm)).2
            cases hi
          · obtain rfl := (Prod.mk.inj (Option.some.inj h'.symm)).2
            simpa [Command.drawn] using hi
    rwa [hdrawn]

section Run

variable [DecidableEq D] {l : List Creation} {w w' : World D} {e : Event D} {d : D}

/-- Finitely many devices have been at work. -/
theorem confined_of_run {es : List (Event D)} (h : run World.initial es = some w) :
  ∃ S, Confined S w
  := by
  have hinitial : Confined ∅ (World.initial : World D) := fun _ _ => rfl
  apply exists_confined hinitial h

/-- From every state that can be reached the devices come to rest when they are left to
themselves. -/
theorem users_settle {es : List (Event D)} (h : run World.initial es = some w) :
  Settles program w
  := by
  obtain ⟨S, hS⟩ := confined_of_run h
  apply Backend.settles responsive_program (.inr inferInstance) hS

/-! ### What a device has found -/

/-- What a device has found, or shows, is stored or under way from the device. -/
structure Grounded (l : List Creation) (w : World D) : Prop where
  traced : Traced l w
  results : ∀ d, ∀ r ∈ (w.device d).client.results, ∀ i, (r.2.lookup i).isSome → Underway i d w
  userLists : ∀ d, ∀ u ∈ (w.device d).app.userLists, Underway u.taskId d w

omit [DecidableEq D] in
/-- A record that a load finds is one that its device has found. -/
theorem underway_of_mem_loaded (h : Grounded l w) {r : Query × Collection String Document}
    (hr : r ∈ (w.device d).client.results) {u : UserInfo} (hu : u ∈ loaded r.1 r.2) :
  Underway u.taskId d w
  := by
  obtain ⟨i, doc, hi, hdec⟩ := mem_loaded.mp hu
  obtain ⟨u', hdec', rfl, -⟩ := h.traced.recorded.versions.results d r hr i doc hi
  obtain rfl : u' = u := by simpa [hdec'] using hdec
  apply h.results d r hr
  simp [hi]

theorem grounded_step (h : Grounded l w) (hs : step w e = some w') :
  Grounded (l ++ created w e) w'
  := by
  have hunderway : ∀ {id d}, Underway id d w → Underway id d w' :=
    fun h' => underway_step h.traced.recorded hs h'
  constructor
  · apply traced_step h.traced hs
  · intro d r hr i hi
    rcases mem_results_step hs hr with hr | ⟨-, hview⟩
    · apply hunderway (h.results d r hr i hi)
    · rw [hview, World.view, Collection.isSome_lookup_overlay (h.traced.recorded.writes d)] at hi
      apply hunderway hi
  · intro d u hu
    rcases app_step hs d with happ | happ | ⟨c, cs, hh, hsettle⟩
    · rw [happ] at hu
      apply hunderway (h.userLists d u hu)
    · rw [happ] at hu
      cases hu
    · have hfound : ∀ r ∈ (w.device d).client.results, ∀ v ∈ loaded r.1 r.2,
          Underway v.taskId d w' := fun r hr v hv => hunderway (underway_of_mem_loaded h hr hv)
      rcases handler_cases hh with ⟨v, name, hr⟩ | ⟨v, hc⟩ | hr
      · rw [hr.app] at hu
        obtain ⟨u', hu', heq⟩ := mem_setName hu
        have hid : u.taskId = u'.taskId := by rw [heq]
        rw [hid]
        apply hunderway (h.userLists d u' hu')
      · rcases hc.mem_userLists hu with hu | ⟨r, hr, hu⟩ | rfl
        · apply hunderway (h.userLists d u hu)
        · apply hfound r hr u hu
        · refine .inr ⟨.set u.taskId u.encode, ?_, rfl⟩
          rw [(settle_self hsettle).2.1, hc.written]
          apply List.mem_append_right
          apply List.mem_singleton_self
      · rcases hr.mem_userLists hu with hu | ⟨r, hr, hu⟩
        · apply hunderway (h.userLists d u hu)
        · apply hfound r hr u hu

theorem grounded_of_exec {es : List (Event D)} (h : Grounded l w) (hs : run w es = some w') :
  ∃ l', Grounded l' w'
  := by
  apply Run.invariant_of_step (I := fun w => ∃ l, Grounded l w) _ ⟨l, h⟩ hs
  rintro w e w' ⟨l, hw⟩ he
  exact ⟨_, grounded_step hw he⟩

omit [DecidableEq D] in
theorem grounded_initial :
  Grounded [] (World.initial : World D)
  where
  traced := ⟨recorded_initial, fun a ha => by cases ha⟩
  results d r hr := by cases hr
  userLists d u hu := by cases hu

theorem grounded_of_run {es : List (Event D)} (h : run World.initial es = some w) :
  Grounded (creations World.initial es) w
  := by
  apply Run.log_of_step (P := Grounded) _ grounded_initial h
  intro l w e w' hw hs
  apply grounded_step hw hs

omit [DecidableEq D] in
/-- At rest a record that is shown is stored. -/
theorem stored_of_quiet (h : Grounded l w) (hquiet : w.Quiet) {u : UserInfo}
    (hu : u ∈ (w.device d).app.userLists) :
  ∃ doc v, w.server.lookup u.taskId = some doc ∧ UserInfo.decode doc = .ok v
    ∧ v.creation = u.creation
  := by
  apply creation_of_isSome h.traced.recorded h.traced.recorded.versions.server
    (h.traced.recorded.versions.app d u hu)
  apply stored_of_underway (h.userLists d u hu) (hquiet d).1

/-! ### A sign-in -/

/-- The user `uid` has signed in on the device `d` from the screen `n`, and has a record as soon
as the load of the screen is delivered. -/
structure SigningIn (uid : String) (n : ℕ) (d : D) (w : World D) : Prop where
  running : (w.device d).app.running
  user : (w.device d).app.currentUser = some uid
  record : .login n ∈ pending (w.device d) ∨ HasRecord (w.device d).app

/-- The screen `n` of the device `d` is gone as soon as its load is delivered. -/
def Leaving (n : ℕ) (d : D) (w : World D) : Prop :=
  (w.device d).app.login = none
    ∨ (w.device d).app.login = some ⟨n, false⟩ ∧ .login n ∈ pending (w.device d)

/-- A member of a list is the one at `i`, or left when that is taken away. -/
theorem eq_or_mem_eraseIdx {α : Type*} {l : List α} {i : ℕ} {a b : α} (ha : a ∈ l)
    (hb : l[i]? = some b) :
  a = b ∨ a ∈ l.eraseIdx i
  := by
  obtain ⟨hi, rfl⟩ := List.getElem?_eq_some_iff.mp hb
  apply List.mem_cons.mp
  apply (List.getElem_cons_eraseIdx_perm hi).mem_iff.mpr ha

/-- What an event that happens by itself and in order does to a device: the app and the pending
loads stay, or the first load is delivered and the others stay. -/
theorem tending_cases (hs : step w e = some w') (he : e.Spontaneous ∧ e.Orderly) (d : D) :
  ((w'.device d).app = (w.device d).app ∧ pending (w.device d) ⊆ pending (w'.device d))
    ∨ ∃ q k record cs, e = .deliver d 0 record
      ∧ (w.device d).client.results[0]? = some (q, k)
      ∧ callback q k record (w.device d).app = some ((w'.device d).app, cs)
      ∧ ∀ q' ∈ pending (w.device d), q' = q ∨ q' ∈ pending (w'.device d)
  := by
  rcases step_cases hs with ⟨f, -, hs⟩ | ⟨f, i, -, hs⟩ | ⟨f, c, r, hh, hs⟩
  · obtain ⟨happ, hrequests, hresults⟩ := arrive_device hs d
    left
    use happ
    rw [pending, pending, hrequests, hresults]
    apply List.Subset.refl
  · obtain ⟨q, hq, rfl⟩ := answer_cases hs
    left
    rcases eq_or_ne d f with rfl | hd
    · rw [World.put_device_self]
      refine ⟨rfl, ?_⟩
      intro q' hq'
      simp only [pending, List.map_append, List.map_cons, List.map_nil, List.mem_append,
        List.mem_singleton] at hq' ⊢
      rcases hq' with hq' | hq'
      · rcases eq_or_mem_eraseIdx hq' hq with rfl | hq'
        · simp
        · simp [hq']
      · simp [hq']
    · rw [World.put_device_of_ne hd]
      exact ⟨rfl, List.Subset.refl _⟩
  · rcases eq_or_ne d f with rfl | hd
    · obtain ⟨q, k, record, rfl, hk, rfl, rfl⟩ := deliver_of_handler hh he
      obtain ⟨⟨app, cs⟩, heff⟩ := callback_eq_some q k record (w.device d).app
      rw [show program.callback q k record (w.device d).app = some (app, cs) from heff] at hs
      obtain ⟨happ, -, hrequests, hresults⟩ := settle_self hs
      right
      use q, k, record, cs, rfl, hk, happ ▸ heff
      intro q' hq'
      rw [pending, hrequests, hresults]
      rcases List.mem_append.mp hq' with hq' | hq'
      · right
        simp [hq']
      · obtain ⟨r, hr, rfl⟩ := List.mem_map.mp hq'
        apply (eq_or_mem_eraseIdx hr hk).imp (congrArg Prod.fst)
        intro hr
        apply List.mem_append_right
        apply List.mem_map_of_mem hr
    · left
      rw [settle_device_of_ne hs hd]
      exact ⟨rfl, List.Subset.refl _⟩

/-- A load leaves the session as it is, and that of a login screen a record of the user. -/
theorem session_of_callback {q : Query} {k : Collection String Document} {record : NewRecord}
    {app app' : App} {cs : List Command} (h : callback q k record app = some (app', cs)) :
  app'.running = app.running ∧ app'.currentUser = app.currentUser
    ∧ (HasRecord app → HasRecord app') ∧ (q ≠ .home → HasRecord app')
  := by
  cases q with
  | home =>
      obtain ⟨rfl, rfl⟩ := Prod.mk.inj (Option.some.inj h.symm)
      refine ⟨rfl, rfl, ?_, fun hq => absurd rfl hq⟩
      have huserLists : (ViewController.readUserInfoFromFirestore.completed k app).1.userLists
          = app.userLists ++ loaded .home k := by
        apply appendDocuments_eq .home
      intro hrecord
      apply (hasRecord_of_loads huserLists rfl).mpr
      left
      apply hrecord
  | login number =>
      obtain ⟨login, heq⟩ := completed_eq number k record app
      have h' : readUserInfoFromFirestore.completed number k record app = some (app', cs) := h
      rw [heq] at h'
      split_ifs at h' with hany
      · obtain ⟨rfl, rfl⟩ := Prod.mk.inj (Option.some.inj h'.symm)
        exact ⟨rfl, rfl, fun _ => hany, fun _ => hany⟩
      · obtain ⟨rfl, rfl⟩ := Prod.mk.inj (Option.some.inj h'.symm)
        have hrecord : HasRecord { app with
            userLists := app.userLists ++ loaded (.login number) k ++ [added record app.userID]
            login := login
            lastLoad := some true } := by
          use added record app.userID, by simp
          rfl
        exact ⟨rfl, rfl, fun _ => hrecord, fun _ => hrecord⟩

theorem signingIn_step {uid : String} {n : ℕ} (h : SigningIn uid n d w)
    (he : e.Spontaneous ∧ e.Orderly) (hs : step w e = some w') :
  SigningIn uid n d w'
  := by
  rcases tending_cases hs he d with ⟨happ, hpending⟩ | ⟨q, k, record, cs, -, -, hcall, hothers⟩
  · constructor
    · rw [happ]
      apply h.running
    · rw [happ]
      apply h.user
    · rw [happ]
      apply h.record.imp_left fun hn => hpending hn
  · obtain ⟨hrunning, huser, hkeeps, hfinds⟩ := session_of_callback hcall
    constructor
    · rw [hrunning]
      apply h.running
    · rw [huser]
      apply h.user
    · rcases h.record with hn | hrecord
      · rcases hothers _ hn with rfl | hn
        · right
          apply hfinds (by simp)
        · left
          apply hn
      · right
        apply hkeeps hrecord

omit [DecidableEq D] in
/-- Records that were created can be decoded. -/
theorem decodes_of_recorded {c : Collection String Document} (hc : c.All (RecordedDocument l)) :
  (orderedByCreatedAt c).all fun document => (UserInfo.decode document.2).isOk
  := by
  apply List.all_eq_true.mpr
  rintro ⟨i, doc⟩ hdoc
  obtain ⟨u, hdec, -⟩ := hc i doc (Collection.mem_orderedBy.mp hdoc).1
  simp [hdec, Except.isOk, Except.toBool]

theorem leaving_step {n : ℕ} (hrecorded : Recorded l w) (h : Leaving n d w)
    (he : e.Spontaneous ∧ e.Orderly) (hs : step w e = some w') :
  Leaving n d w'
  := by
  rcases tending_cases hs he d with ⟨happ, hpending⟩ | ⟨q, k, record, cs, -, hk, hcall, hothers⟩
  · rw [Leaving, happ]
    apply h.imp_right fun ⟨hlogin, hn⟩ => ⟨hlogin, hpending hn⟩
  · cases q with
    | home =>
        have hlogin : (w'.device d).app.login = (w.device d).app.login := by
          obtain ⟨heq, -⟩ := Prod.mk.inj (Option.some.inj hcall)
          rw [← heq]
        rw [Leaving, hlogin]
        apply h.imp_right
        rintro ⟨hlogin, hn⟩
        use hlogin, (hothers _ hn).resolve_left (by simp)
    | login m =>
        obtain ⟨userLists, happ, -⟩ := completed_spec hcall
        have hlogin : (w'.device d).app.login
            = (presentTaskHomeViewController m (w.device d).app).login := by
          have hall := decodes_of_recorded
            (hrecorded.versions.results d _ (List.mem_of_getElem? hk))
          rw [happ, if_pos hall]
        rw [Leaving, hlogin]
        rcases h with hnone | ⟨hscreen, hn⟩
        · left
          simp [presentTaskHomeViewController, hnone]
        · rcases hothers _ hn with heq | hn
          · left
            simp [presentTaskHomeViewController, hscreen, Query.login.inj heq]
          · by_cases hnm : n = m
            · left
              simp [presentTaskHomeViewController, hscreen, hnm]
            · right
              use presentTaskHomeViewController_of_ne hscreen hnm, hn

/-- When Auth has granted a sign-in the load of the screen that asked is pending. -/
theorem signedIn_step {uid : String} {i : ℕ}
    (hs : step w (.act d (.signedIn i uid)) = some w') :
  (w.device d).app.running ∧ ∃ n, (w.device d).app.signIns[i]? = some n
    ∧ (w'.device d).app = (signedIn i n uid (w.device d).app).1
    ∧ .login n ∈ pending (w'.device d)
  := by
  obtain ⟨⟨f, c, r⟩, hh, hsettle⟩ := Option.bind_eq_some_iff.mp hs
  obtain ⟨henabled, rfl, rfl, rfl⟩ := handler_act.mp hh
  obtain ⟨hrunning, hi⟩ := Bool.and_eq_true_iff.mp henabled
  use hrunning
  obtain ⟨n, hn⟩ : ∃ n, (w.device d).app.signIns[i]? = some n :=
    ⟨_, List.getElem?_eq_getElem (of_decide_eq_true hi)⟩
  have hact : program.act (.signedIn i uid) (w.device d).app
      = some (signedIn i n uid (w.device d).app) := by
    simp [program, act, hn]
  simp only [hact] at hsettle
  obtain ⟨happ, -, hrequests, -⟩ := settle_self hsettle
  use n, hn, happ
  rw [pending, hrequests]
  apply List.mem_append_left
  apply List.mem_append_right
  apply List.mem_singleton_self

/-- Auth has granted the sign-in that the screen `n` of the device `d` asked for at `i`: then the
devices, as far as their users are concerned, come to rest when they are left to themselves, and
when they do so in order, nothing failing, the account is signed in on the device, it has a record
on the server and in `userLists`, and Home is in front if the screen was and showed no alert. -/
theorem signIn_completes {es : List (Event D)} {uid : String} {i : ℕ}
    (h : run World.initial es = some w) (hs : step w (.act d (.signedIn i uid)) = some w') :
  (∃ es' w₁, (∀ e ∈ es', e.Spontaneous ∧ e.Orderly) ∧ run w' es' = some w₁ ∧ w₁.Quiet)
    ∧ ∀ es' w₁, (∀ e ∈ es', e.Spontaneous ∧ e.Orderly) → run w' es' = some w₁ → w₁.Quiet →
      (w₁.device d).app.currentUser = some uid ∧ HasRecord (w₁.device d).app
        ∧ Stores w₁.server (describing (some uid))
        ∧ ∀ n, (w.device d).app.signIns[i]? = some n →
          (w.device d).app.login = some ⟨n, false⟩ → OnHome w₁ d
  := by
  have h' := Run.exec_snoc h hs
  obtain ⟨S, hS⟩ := confined_of_run h'
  use (Backend.settles responsive_program (.inr inferInstance) hS).reaches
  intro es' w₁ hes' hrun hquiet
  obtain ⟨hrunning, n, hn, happ, hpending⟩ := signedIn_step hs
  have hsigning : SigningIn uid n d w₁ := by
    apply Run.exec_invariant (C := fun _ e => e.Spontaneous ∧ e.Orderly)
      (fun w e w' hw he hs => signingIn_step hw he hs) _ (Run.along_of_forall fun _ => hes') hrun
    constructor
    · rw [happ]
      apply hrunning
    · rw [happ]
      rfl
    · left
      apply hpending
  have hnone : pending (w₁.device d) = [] := by simp [pending, hquiet d]
  have hrecord : HasRecord (w₁.device d).app := by
    rcases hsigning.record with hmem | hrecord
    · simp [hnone] at hmem
    · apply hrecord
  have hgrounded := grounded_of_run (Run.exec_append h' hrun)
  refine ⟨hsigning.user, hrecord, ?_, ?_⟩
  · obtain ⟨u, hu, hid⟩ := hrecord
    obtain ⟨doc, v, hdoc, hdec, hcreation⟩ := stored_of_quiet hgrounded hquiet hu
    refine ⟨_, doc, v, hdoc, hdec, ?_⟩
    rw [show v.userID = u.userID from congrArg Creation.userID hcreation, hid, App.userID,
      hsigning.user]
  · intro m hm hscreen
    obtain rfl : n = m := Option.some.inj (hn.symm.trans hm)
    have hleaving : Leaving n d w₁ := by
      apply (Run.exec_induction (f := created) (P := fun l w => Recorded l w ∧ Leaving n d w)
        (C := fun _ e => e.Spontaneous ∧ e.Orderly) _ ⟨recorded_of_run h', _⟩
        (Run.along_of_forall fun _ => hes') hrun).2
      · rintro l w e w' ⟨hrecorded, hw⟩ he hs
        use recorded_step hrecorded hs, leaving_step hrecorded hw he hs
      · right
        use happ ▸ hscreen, hpending
    refine ⟨hsigning.running, by simp [hsigning.user], ?_⟩
    rcases hleaving with hlogin | ⟨-, hmem⟩
    · apply hlogin
    · simp [hnone] at hmem

end Run

/-- Two devices come to rest while an account is registered. -/
theorem users_settle_registers :
  ∃ w : World Bool, run World.initial (launches true ++ launches false ++ registers true "u")
    = some w ∧ Settles program w
  := by
  have hrun : (run (World.initial : World Bool) (launches true ++ launches false
      ++ registers true "u")).isSome := by
    decide +kernel
  obtain ⟨w, hw⟩ := Option.isSome_iff_exists.mp hrun
  use w, hw
  apply users_settle hw

/-- A user registers while another device is at work. -/
theorem signIn_completes_registers :
  ∃ w₁ : World Bool, OnHome w₁ true ∧ Stores w₁.server (describing (some "u"))
  := by
  have hrun : ∃ w ∈ run (World.initial : World Bool) (launches true ++ launches false
      ++ loads true (record "a" (by decide))
      ++ [.act true (.tappedNewRegisterBtn "mail" "password")]),
      (w.device true).app.signIns[0]? = some 0
        ∧ (w.device true).app.login = some ⟨0, false⟩
        ∧ (step w (.act true (.signedIn 0 "u"))).isSome := by
    decide +kernel
  obtain ⟨w, hw, hasked, hscreen, hstep⟩ := hrun
  obtain ⟨w', hw'⟩ := Option.isSome_iff_exists.mp hstep
  obtain ⟨⟨es', w₁, hes', hrun, hquiet⟩, hall⟩ := signIn_completes hw hw'
  obtain ⟨-, -, hstores, hhome⟩ := hall es' w₁ hes' hrun hquiet
  use w₁, hhome 0 hasked hscreen

end Users

import TaskFirestoreApp.Users.Effects
import Mathlib.Data.Fintype.Basic

/-!
# Users with a record

The account of a user is created before its record, and only the load of a login screen
creates a record. A session that goes on after the app was killed starts with Home's load,
which does not. A user on Home therefore has a record exactly as long as no load of Home
completes last without one.
-/

namespace Users

open Backend UserInfoManager

variable {D : Type}

/-- A user is signed in on the device `d` and sees Home. -/
def OnHome (w : World D) (d : D) : Prop :=
  (w.device d).app.running ∧ (w.device d).app.currentUser.isSome ∧ (w.device d).app.login = none

instance (w : World D) (d : D) : Decidable (OnHome w d) :=
  inferInstanceAs (Decidable (_ ∧ _ ∧ _))

/-- A user who is signed in and sees Home, when no load of Users is pending and the last one
succeeded, has a record. -/
def Established (w : World D) (d : D) : Prop :=
  OnHome w d → (w.device d).client.requests = [] → (w.device d).client.results = [] →
    (w.device d).app.lastLoad = some true → HasRecord (w.device d).app

/-- When the last pending load is one of Home, and it is delivered to a user who sees Home, a
record of the user was stored when it was answered, or is in `userLists`. -/
def HomeFinds (w : World D) (e : Event D) : Prop :=
  ∀ p ∈ e.delivery, ∀ r ∈ (w.device p.1).client.results[p.2]?, r.1 = .home → OnHome w p.1 →
    (w.device p.1).client.requests = [] → (w.device p.1).client.results.length = 1 →
    HasRecord (w.device p.1).app ∨ Stores r.2 (w.device p.1).app.userID

instance (w : World D) (e : Event D) : Decidable (HomeFinds w e) :=
  inferInstanceAs (Decidable (∀ p ∈ e.delivery, ∀ r ∈ (w.device p.1).client.results[p.2]?,
    r.1 = .home → OnHome w p.1 →
    (w.device p.1).client.requests = [] → (w.device p.1).client.results.length = 1 →
    HasRecord (w.device p.1).app ∨ Stores r.2 (w.device p.1).app.userID))

/-- After a load the user has a record when it had one before, or one was stored. -/
theorem hasRecord_of_loads {app app' : App} {q : Query} {c : Collection String Document}
    (huserLists : app'.userLists = app.userLists ++ loaded q c)
    (huser : app'.currentUser = app.currentUser) :
  HasRecord app' ↔ HasRecord app ∨ Stores c app.userID
  := by
  simp only [HasRecord, stores_iff q, huserLists, App.userID, huser, List.mem_append, or_and_right,
    exists_or]

section Step

variable {w w' : World D} {e : Event D} {d : D}

/-- Established depends on the app and the loads of the device. -/
theorem established_congr (h : Established w d) (happ : (w'.device d).app = (w.device d).app)
    (hrequests : (w'.device d).client.requests = (w.device d).client.requests)
    (hresults : (w'.device d).client.results = (w.device d).client.results) :
  Established w' d
  := by
  simpa only [Established, OnHome, happ, hrequests, hresults] using h

variable [DecidableEq D]

/-- A handler keeps the record of its user, creates one, or leaves a load that is pending or
has failed; the load of Home is the exception. -/
theorem established_handler {c : Client String Document Query Empty} {app : App}
    {cs : List Command} (h : Established w d) (hfinds : HomeFinds w e)
    (hh : handler program w e = some (d, c, some (app, cs)))
    (hs : settle program w d c (some (app, cs)) = some w') :
  Established w' d
  := by
  obtain ⟨happ, -, hrequests, hresults⟩ := settle_self hs
  rintro ⟨hrunning, huser, hlogin⟩ hnorequests hnoresults hlast
  rw [happ] at hrunning huser hlogin hlast ⊢
  rw [hrequests, List.append_eq_nil_iff] at hnorequests
  rw [hresults] at hnoresults
  rcases handler_cases hh with ⟨u, name, hr⟩ | ⟨u, hc⟩ | hr
  · have hsaved : lastRecord (w.device d).app.userID (setNameAtCurrentUserID name
        (w.device d).app.userID (w.device d).app.userLists) = some { u with name := name } := by
      rw [lastRecord_setName, hr.record]
      rfl
    rw [hr.app]
    exact ⟨_, lastRecord_eq_some hsaved⟩
  · obtain ⟨i, number, k, record, -, -, -, -, huserLists⟩ := hc.delivery
    use u
    rw [huserLists, hc.userID, App.userID, App.userID, hc.currentUser]
    simp
  · cases hr with
    | loads i q k record event result userLists session login found commands =>
        cases q with
        | login number => apply found (by simp)
        | home =>
            subst event
            obtain ⟨-, -, -, -, rfl, -⟩ := handler_deliver.mp hh
            obtain ⟨hlt, -⟩ := List.getElem?_eq_some_iff.mp result
            have hlength : (w.device d).client.results.length = 1 := by
              have hzero : ((w.device d).client.results.eraseIdx i).length = 0 :=
                congrArg List.length hnoresults
              rw [List.length_eraseIdx_of_lt hlt] at hzero
              omega
            have hhome : OnHome w d := by
              use session.1 ▸ hrunning, session.2 ▸ huser
              rw [← login rfl, hlogin]
            rw [hasRecord_of_loads userLists session.2]
            apply hfinds (d, i) rfl _ result rfl hhome hnorequests.1 hlength
    | clears a event q userLists commands => simp [commands, Command.requested] at hnorequests
    | fails i event userLists session lastLoad commands => simp [lastLoad] at hlast
    | keeps a event userLists session login lastLoad running commands =>
        subst event
        obtain ⟨-, -, rfl, -⟩ := handler_act.mp hh
        rcases session with session | session
        · rw [HasRecord, userLists, App.userID, session]
          apply h _ hnorequests.1 hnoresults (lastLoad ▸ hlast)
          use running ▸ hrunning, session ▸ huser, login hlogin
        · simp [session] at huser

/-- A step keeps it, if Home's load finds a record. -/
theorem established_step (h : ∀ d, Established w d) (hfinds : HomeFinds w e)
    (hs : step w e = some w') (f : D) :
  Established w' f
  := by
  rcases step_cases hs with ⟨d, -, hs⟩ | ⟨d, i, -, hs⟩ | ⟨d, c, r, hh, hs⟩
  · obtain ⟨happ, hrequests, hresults⟩ := arrive_device hs f
    apply established_congr (h f) happ hrequests hresults
  · obtain ⟨q, -, rfl⟩ := answer_cases hs
    rcases eq_or_ne f d with rfl | hf
    · intro _ _ hresults
      simp at hresults
    · apply established_congr (h f) <;> simp [hf]
  · rcases eq_or_ne f d with rfl | hf
    · rcases settle_cases hs with ⟨-, rfl⟩ | ⟨app, cs, rfl, -, -⟩
      · rintro ⟨hrunning, -⟩
        simp [program, App.stopped] at hrunning
      · apply established_handler (h f) hfinds hh hs
    · have hdevice := settle_device_of_ne hs hf
      apply established_congr (h f) <;> rw [hdevice]

/-- The load of Home has to find a record. -/
theorem finds_of_established (hs : step w e = some w') (h : ∀ d, Established w' d) :
  HomeFinds w e
  := by
  rintro ⟨d, i⟩ he ⟨q, c⟩ hr rfl ⟨hrunning, huser, hlogin⟩ hrequests hresults
  obtain ⟨x, rfl⟩ := Event.delivery_eq_some.mp he
  obtain ⟨⟨f, client, r⟩, hh, hsettle⟩ := Option.bind_eq_some_iff.mp hs
  obtain ⟨q, k, hk, rfl, rfl, rfl⟩ := handler_deliver.mp hh
  obtain ⟨rfl, rfl⟩ := Prod.mk.inj (Option.some.inj (hr.symm.trans hk))
  obtain ⟨happ, -, hrequests', hresults'⟩ := settle_self hsettle
  have hdone : (w.device d).client.results.eraseIdx i = [] := by
    obtain ⟨hlt, -⟩ := List.getElem?_eq_some_iff.mp hr
    rw [← List.length_eq_zero_iff, List.length_eraseIdx_of_lt hlt]
    omega
  have hrecord := h d
  rw [Established, OnHome, happ, hrequests', hresults'] at hrecord
  have hcompleted : HasRecord (ViewController.readUserInfoFromFirestore.completed c
      (w.device d).app).1 := by
    apply hrecord ⟨hrunning, huser, hlogin⟩ (by simp [hrequests]) hdone rfl
  have huserLists : (ViewController.readUserInfoFromFirestore.completed c
      (w.device d).app).1.userLists = (w.device d).app.userLists ++ loaded .home c := by
    apply appendDocuments_eq .home
  apply (hasRecord_of_loads huserLists rfl).mp hcompleted

/-- In a run from the start every user who is signed in and sees Home has a record, in every
state in which no load of Users is pending and the last one succeeded, exactly when no load of
Home is the last pending one and finds no record of the user who sees Home. -/
theorem established_iff {es : List (Event D)} (h : run World.initial es = some w) :
  (∀ es₁ es₂ w₁ d, es = es₁ ++ es₂ → run World.initial es₁ = some w₁ → Established w₁ d)
    ↔ Run.Along step HomeFinds World.initial es
  := by
  have hthroughout : (∀ es₁ es₂ w₁ d, es = es₁ ++ es₂ → run World.initial es₁ = some w₁ →
      Established w₁ d)
      ↔ Run.Throughout step (fun w => ∀ d, Established w d) World.initial es := by
    constructor
    · intro hall es₁ es₂ w₁ hes h₁ d
      apply hall es₁ es₂ w₁ d hes h₁
    · intro hall es₁ es₂ w₁ d hes h₁
      apply hall es₁ es₂ w₁ hes h₁
  rw [hthroughout]
  apply Run.throughout_iff_along_of_step _ _ h
  · intro w e w' hw hs
    constructor
    · intro hw'
      apply finds_of_established hs hw'
    · intro hfinds d
      apply established_step hw hfinds hs
  · rintro d ⟨hrunning, -⟩
    simp [World.initial, App.stopped] at hrunning

end Step

/-- A user registers, and sees Home again after the app was killed. -/
theorem established_iff_relaunched :
  ∃ w ∈ run World.initial (launches () ++ loads () (record "a" (by decide)) ++ registers () "u"
      ++ loads () (record "t" (by decide)) ++ [.kill ()] ++ launches ()
      ++ loads () (record "b" (by decide))), OnHome w () ∧ Established w ()
  := by
  have hrun : ∃ w ∈ run World.initial (launches () ++ loads () (record "a" (by decide))
      ++ registers () "u" ++ loads () (record "t" (by decide)) ++ [.kill ()] ++ launches ()
      ++ loads () (record "b" (by decide))), OnHome w () := by
    decide +kernel
  obtain ⟨w, hw, hhome⟩ := hrun
  use w, hw, hhome
  refine (established_iff hw).mpr ?_ _ [] w () (List.append_nil _).symm hw
  decide +kernel

/-- A user registers, and the app is killed before the load that would create the record is
delivered. -/
theorem not_established :
  ¬ ∀ (es : List (Event Unit)) w d, run World.initial es = some w → Established w d
  := by
  intro h
  have hrun : ∃ w ∈ run World.initial (launches () ++ loads () (record "a" (by decide))
      ++ registers () "u" ++ [.kill ()] ++ launches () ++ loads () (record "b" (by decide))),
      OnHome w () ∧ (w.device ()).client.requests = [] ∧ (w.device ()).client.results = []
        ∧ (w.device ()).app.lastLoad = some true ∧ ¬ HasRecord (w.device ()).app := by
    decide +kernel
  obtain ⟨w, hw, hhome, hrequests, hresults, hlast, hnone⟩ := hrun
  apply hnone (h _ w () hw hhome hrequests hresults hlast)

end Users

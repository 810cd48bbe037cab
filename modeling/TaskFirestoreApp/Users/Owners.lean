import TaskFirestoreApp.Users.Effects
import TaskFirestoreApp.Library.Everywhere

/-!
# Records of nobody

The userID of a record is the description of the uid, and nobody has one too. The load of a
login screen creates a record whoever is signed in when it is delivered: a second sign-in from
one screen, whose load comes after its user has logged out, creates a record of nobody.
-/

namespace Users

open Backend UserInfoManager

variable {D : Type}

/-- The record is that of an account. -/
def OfAccount (u : UserInfo) : Prop :=
  u.userID ≠ describing none

/-- No version of a document of Users, wherever it is, and no record in a `userLists` is of
nobody. -/
def Owned (w : World D) : Prop :=
  Everywhere (fun _ doc => ∀ u, UserInfo.decode doc = .ok u → OfAccount u)
    (fun app => ∀ u ∈ app.userLists, OfAccount u) w

/-- The load of a login screen is delivered while somebody is signed in. -/
def LoadsSignedIn (w : World D) (e : Event D) : Prop :=
  ∀ p ∈ e.delivery, ∀ r ∈ (w.device p.1).client.results[p.2]?, r.1 ≠ .home →
    (w.device p.1).app.currentUser.isSome

instance (w : World D) (e : Event D) : Decidable (LoadsSignedIn w e) :=
  inferInstanceAs (Decidable (∀ p ∈ e.delivery, ∀ r ∈ (w.device p.1).client.results[p.2]?,
    r.1 ≠ .home → (w.device p.1).app.currentUser.isSome))

/-- The records a load finds are those of accounts when its documents are. -/
theorem owned_of_mem_loaded {q : Query} {c : Collection String Document}
    (hc : c.All fun _ doc => ∀ u, UserInfo.decode doc = .ok u → OfAccount u)
    {u : UserInfo} (hu : u ∈ loaded q c) :
  OfAccount u
  := by
  obtain ⟨i, doc, hdoc, hdec⟩ := mem_loaded.mp hu
  apply hc i doc hdoc u hdec

theorem owned_initial :
  Owned (World.initial : World D)
  := by
  apply Everywhere.of_empty rfl (fun _ => rfl)
  intro d u hu
  cases hu

section Step

variable [DecidableEq D] {w w' : World D} {e : Event D} {d : D}
  {c : Client String Document Query Empty} {eff : Effect}

omit [DecidableEq D] in
/-- A handler leaves records of accounts when the load it is given comes while somebody is
signed in. -/
theorem respects_owned (h : Owned w) (hloads : LoadsSignedIn w e)
    (hh : handler program w e = some (d, c, some eff)) :
  eff.Respects (fun _ doc => ∀ u, UserInfo.decode doc = .ok u → OfAccount u)
    (fun app => ∀ u ∈ app.userLists, OfAccount u)
  := by
  obtain ⟨app, cs⟩ := eff
  have hfound : ∀ r ∈ (w.device d).client.results, ∀ u ∈ loaded r.1 r.2, OfAccount u :=
    fun r hr u hu => owned_of_mem_loaded (h.results d r hr) hu
  -- the user a record is created for is signed in
  have hcreates : ∀ u, Creates w d e app cs u → OfAccount u := by
    intro u hs hnobody
    obtain ⟨i, number, k, record, rfl, hr, -⟩ := hs.delivery
    have hsome := hloads (d, i) rfl _ hr (by simp)
    rw [hs.userID, App.userID] at hnobody
    rw [describing_injective hnobody] at hsome
    cases hsome
  constructor
  · intro u hu
    rcases handler_cases hh with ⟨v, name, hs⟩ | ⟨v, hs⟩ | hs
    · rw [hs.app] at hu
      obtain ⟨u', hu', heq⟩ := mem_setName hu
      rw [heq]
      apply h.app d u' hu'
    · rcases hs.mem_userLists hu with hu | ⟨r, hr, hu⟩ | rfl
      · apply h.app d u hu
      · apply hfound r hr u hu
      · apply hcreates u hs
    · rcases hs.mem_userLists hu with hu | ⟨r, hr, hu⟩
      · apply h.app d u hu
      · apply hfound r hr u hu
  · intro x hx
    rcases mem_written hh hx with ⟨u, name, id, hs, -, rfl⟩ | ⟨u, hs, rfl⟩
    · intro v hv
      obtain rfl : { u with name := name } = v := by simpa using hv
      apply h.app d u hs.mem
    · intro v hv
      obtain rfl : u = v := by simpa using hv
      apply hcreates u hs

omit [DecidableEq D] in
/-- While nobody is signed in the load of a login screen creates a record of nobody. -/
theorem callback_of_nobody (h : Owned w) {number : ℕ} {k : Collection String Document}
    (hr : (.login number, k) ∈ (w.device d).client.results)
    (hnobody : (w.device d).app.currentUser = none) (record : NewRecord) :
  ∃ app u, callback (.login number) k record (w.device d).app
      = some (app, [.draw u.taskId, .write (.set u.taskId u.encode)])
    ∧ u ∈ app.userLists ∧ ¬ OfAccount u
  := by
  have huserID : (w.device d).app.userID = describing none := by rw [App.userID, hnobody]
  obtain ⟨login, heq⟩ := TaskLoginViewController.completed_eq number k record (w.device d).app
  rw [if_neg] at heq
  · refine ⟨_, TaskLoginViewController.added record (w.device d).app.userID, heq, ?_, ?_⟩
    · apply List.mem_append_right
      apply List.mem_singleton_self
    · exact fun hown => hown huserID
  · rintro ⟨u, hu, hid⟩
    rw [huserID] at hid
    rcases List.mem_append.mp hu with hu | hu
    · apply h.app d u hu hid
    · apply owned_of_mem_loaded (h.results d _ hr) hu hid

/-- So a load after which there is no record of nobody was delivered to somebody. -/
theorem loadsSignedIn_of_owned (h : Owned w) (hs : step w e = some w') (h' : Owned w') :
  LoadsSignedIn w e
  := by
  rintro ⟨d, i⟩ he ⟨q, k⟩ hr hq
  obtain ⟨record, rfl⟩ := Event.delivery_eq_some.mp he
  by_contra hnobody
  rw [Bool.not_eq_true, Option.isSome_eq_false_iff, Option.isNone_iff_eq_none] at hnobody
  cases q with
  | home => exact hq rfl
  | login number =>
      obtain ⟨app, u, hcall, hu, hnot⟩ :=
        callback_of_nobody h (List.mem_of_getElem? hr) hnobody record
      have hh : handler program w (.deliver d i record) = some (d, _, some (app, _)) :=
        handler_deliver.mpr ⟨_, k, hr, rfl, rfl, hcall.symm⟩
      rw [step, step_of_handler hh] at hs
      apply hnot
      apply h'.app d u
      rw [(settle_self hs).1]
      apply hu

/-- A step keeps the records those of accounts when its load comes while somebody is signed
in. -/
theorem owned_step (h : Owned w) (hloads : LoadsSignedIn w e) (hs : step w e = some w') :
  Owned w'
  := by
  apply h.step (fun _ _ h => h) (fun _ h => h) _ _ hs
  · intro app u hu
    cases hu
  · intro d c eff hh _
    apply respects_owned h hloads hh

/-- In a run from the start no version of a record is ever of nobody exactly when every load of
a login screen is delivered while somebody is signed in. -/
theorem owned_iff {es : List (Event D)} (h : run World.initial es = some w) :
  Run.Throughout step Owned World.initial es ↔ Run.Along step LoadsSignedIn World.initial es
  := by
  apply Run.throughout_iff_along_of_step _ owned_initial h
  intro w e w' hw hs
  constructor
  · apply loadsSignedIn_of_owned hw hs
  · intro hloads
    apply owned_step hw hloads hs

end Step

/-- A user signs in twice from one login screen, and logs out before the second load. -/
theorem owned_iff_twice :
  ¬ Run.Throughout step (Owned (D := Unit)) World.initial (launches ()
    ++ loads () (record "a" (by decide))
    ++ [.act () (.tappedLoginBtn "mail" "password"), .act () (.tappedLoginBtn "mail" "password"),
      .act () (.signedIn 0 "u"), .act () (.signedIn 0 "u")] ++ loads () (record "t" (by decide))
    ++ [.act () .logout] ++ loads () (record "b" (by decide)))
  := by
  have hrun : (run (World.initial : World Unit) (launches () ++ loads () (record "a" (by decide))
      ++ [.act () (.tappedLoginBtn "mail" "password"), .act () (.tappedLoginBtn "mail" "password"),
        .act () (.signedIn 0 "u"), .act () (.signedIn 0 "u")] ++ loads () (record "t" (by decide))
      ++ [.act () .logout] ++ loads () (record "b" (by decide)))).isSome := by
    decide +kernel
  obtain ⟨w, hw⟩ := Option.isSome_iff_exists.mp hrun
  rw [owned_iff hw]
  decide +kernel

end Users

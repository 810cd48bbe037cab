import TaskFirestoreApp.Users.Screens
import TaskFirestoreApp.Users.Owners

/-!
# The name on Home

Home looks the name of its user up when it appears and when its load succeeds, and not when a
second sign-in from the same login screen clears `userLists` or adds to it under its eyes. While
nobody taps the buttons of a login screen before the sign-in and the load they asked for are
over, the label of Home shows the name that is looked up, and every record is that of an account.
-/

namespace Users

open Backend UserInfoManager TaskLoginViewController

variable {D : Type}

namespace ViewController

/-- The text of the label when there is no name. -/
def noName : String := "名前"

/-- The text `viewName` gives the label. -/
def viewName (app : App) : String :=
  let currentUserName := getNameAtCurrentUserID app.userID app.userLists
  if currentUserName = "" then noName else currentUserName

end ViewController

open ViewController

/-! ### The label -/

/-- The devices, and the text of the label of Home on each of them. -/
structure Labelled (D : Type) where
  world : World D
  label : D → String

/-- An event, or Home appears again, when a screen that was pushed is popped or its tab is
selected. -/
inductive Sight (D : Type) where
  | event (e : Event D)
  | viewWillAppear (d : D)
  deriving DecidableEq

def Labelled.initial : Labelled D where
  world := World.initial
  label _ := ""

/-- The device on which an event sets the label: Home is loaded or appears. It appears at the
launch, when a rename pops the edit screen, and when a login screen is gone. -/
def refreshed (w : World D) (e : Event D) (w' : World D) : Option D :=
  match e with
  | .act d (.launch _) => some d
  | .act d (.backToSaveBtn reName) => if reName.isEmpty then none else some d
  | .deliver d i _ => (w.device d).client.results[i]?.bind fun r =>
      if r.1 = .home ∨ (w.device d).app.login.isSome ∧ (w'.device d).app.login = none then some d
      else none
  | _ => none

variable [DecidableEq D]

/-- The label of the device `d` is set. -/
def Labelled.view (s : Labelled D) (d : D) : Labelled D where
  world := s.world
  label := Function.update s.label d (viewName (s.world.device d).app)

def look (s : Labelled D) : Sight D → Option (Labelled D)
  | .event e => (step s.world e).map fun w =>
      (refreshed s.world e w).elim ⟨w, s.label⟩ (Labelled.view ⟨w, s.label⟩)
  | .viewWillAppear d => if OnHome s.world d then some (s.view d) else none

/-! ### Patience -/

/-- The loads of login screens that are pending on a device. -/
def loading (dev : Device App String Document Query Empty) : ℕ :=
  (pending dev).countP fun q => q ≠ .home

/-- Neither a sign-in nor the load of a login screen is pending. -/
def Idle (dev : Device App String Document Query Empty) : Prop :=
  dev.app.signIns = [] ∧ loading dev = 0

instance (dev : Device App String Document Query Empty) : Decidable (Idle dev) :=
  inferInstanceAs (Decidable (_ ∧ _))

/-- The action is a tap on a button of a login screen. -/
def Action.taps : Action → Bool
  | .tappedLoginBtn _ _ => true
  | .tappedNewRegisterBtn _ _ => true
  | _ => false

/-- The device on which a button of a login screen is tapped. -/
def tapped : Sight D → Option D
  | .event (.act d a) => if a.taps then some d else none
  | _ => none

/-- Nobody taps a button of a login screen while what an earlier tap asked for is pending. -/
def Patient (s : Labelled D) (e : Sight D) : Prop :=
  ∀ d ∈ tapped e, Idle (s.world.device d)

instance (s : Labelled D) (e : Sight D) : Decidable (Patient s e) :=
  inferInstanceAs (Decidable (∀ d ∈ tapped e, Idle (s.world.device d)))

/-- Of an app with `n` pending loads of login screens at most one sign-in is under way, and the
screen that asked for it waits. -/
structure Calm (app : App) (n : ℕ) : Prop where
  once : app.signIns.length + n ≤ 1
  waits : 0 < app.signIns.length + n → app.login.isSome
  user : 0 < n → app.currentUser.isSome

section App

variable {app app' : App} {n : ℕ} {cs : List Command}

theorem Calm.of_idle (h : app.signIns = []) :
  Calm app 0
  := by
  constructor <;> simp [h]

/-- An app that changes neither its sign-ins nor who is signed in stays calm as long as its
login screen stays. -/
theorem Calm.of_screen (h : Calm app n) (hsignIns : app'.signIns.length ≤ app.signIns.length)
    (huser : app'.currentUser = app.currentUser)
    (hlogin : app.login.isSome → app'.login.isSome) :
  Calm app' n
  where
  once := by
    have := h.once
    omega
  waits hn := hlogin (h.waits (by omega))
  user hn := huser ▸ h.user hn

theorem Calm.mono {m : ℕ} (h : Calm app n) (hm : m ≤ n) :
  Calm app m
  where
  once := (Nat.add_le_add_left hm _).trans h.once
  waits hpos := h.waits (by omega)
  user hpos := h.user (by omega)

/-- A tap starts a sign-in when none is under way, and Auth's answer goes on with it. -/
theorem Calm.act {a : Action} (h : Calm app n) (hstopped : app.running = false → n = 0)
    (hpatient : a.taps → app.signIns = [] ∧ n = 0) (henabled : enabled a app)
    (hact : Users.act a app = some (app', cs)) :
  Calm app' (n + (cs.filterMap Command.requested).countP fun q => q ≠ .home)
  := by
  cases does_of_act hact with
  | launch now app₀ started =>
      have hn : n = 0 := hstopped (by simpa [enabled] using henabled)
      subst hn started
      apply Calm.of_idle
      split_ifs <;> rfl
  | tappedLoginBtn email password s login fields
  | tappedNewRegisterBtn email password s login fields =>
      obtain ⟨hsignIns, rfl⟩ := hpatient rfl
      constructor
      · simp [hsignIns]
      · simp [login]
      · simp
  | loginAlert email password s login | registerAlert email password s login =>
      refine h.of_screen le_rfl rfl ?_
      rw [isSome_showAlert]
      exact id
  | signedIn i number uid asked =>
      -- the load takes the place of the sign-in
      have hlength := List.length_eraseIdx_add_one (List.getElem?_eq_some_iff.mp asked).1
      have honce := h.once
      have hlogin := h.waits (by omega)
      constructor
      · simp only [List.filterMap_cons, Command.requested, List.filterMap_nil, List.countP_cons,
          List.countP_nil]
        simp only [reduceCtorEq, not_false_eq_true, decide_true, if_true, ne_eq]
        omega
      · intro _
        exact hlogin
      · intro _
        rfl
  | signInFailed i number asked =>
      refine h.of_screen ?_ rfl ?_
      · apply (List.eraseIdx_sublist _ _).length_le
      · rw [isSome_showAlert]
        exact id
  | closeAlert =>
      refine h.of_screen le_rfl rfl ?_
      simp
  | logout =>
      -- nothing is under way on Home
      have hlogin : app.login = none := by
        simpa using (Bool.and_eq_true_iff.mp henabled).2
      have hnone : app.signIns.length + n = 0 := by
        by_contra hpos
        have := h.waits (Nat.pos_of_ne_zero hpos)
        simp [hlogin] at this
      have hsignIns : app.signIns = [] := List.length_eq_zero_iff.mp (by omega)
      obtain rfl : n = 0 := by omega
      exact Calm.of_idle hsignIns
  | noName => exact h
  | backToSaveBtn reName u i nonempty record path => exact h.of_screen le_rfl rfl id

/-- The load of a login screen is the last of what was under way. -/
theorem Calm.completed (h : Calm app (n + 1)) {number : ℕ} {k : Collection String Document}
    {record : NewRecord} (hcall : readUserInfoFromFirestore.completed number k record app
      = some (app', cs)) :
  Calm app' n
  := by
  obtain ⟨userLists, rfl, -⟩ := completed_spec hcall
  have honce := h.once
  obtain rfl : n = 0 := by omega
  apply Calm.of_idle
  apply List.length_eq_zero_iff.mp
  simp only
  omega

end App

section Step

variable {w w' : World D} {e : Event D} {d : D} {c : Client String Document Query Empty}
  {app : App} {cs : List Command}

/-- The queries without the one at `i`. -/
theorem countP_of_getElem? {α : Type*} {p : α → Bool} {l : List α} {i : ℕ} {a : α}
    (h : l[i]? = some a) :
  l.countP p = (l.eraseIdx i).countP p + if p a then 1 else 0
  := by
  obtain ⟨hi, rfl⟩ := List.getElem?_eq_some_iff.mp h
  rw [← (List.getElem_cons_eraseIdx_perm hi).countP_eq, List.countP_cons]

omit [DecidableEq D] in
/-- A handler leaves the app calm. -/
theorem calm_handler (h : Calm (w.device d).app (loading (w.device d)))
    (hguarded : Guarded (w.device d).app (pending (w.device d)))
    (hpatient : ∀ a, e = .act d a → a.taps → Idle (w.device d))
    (hh : handler program w e = some (d, c, some (app, cs))) :
  Calm app ((c.requests ++ cs.filterMap Command.requested
    ++ c.results.map Prod.fst).countP fun q => q ≠ .home)
  := by
  cases e with
  | act d' a =>
      obtain ⟨henabled, rfl, rfl, hact⟩ := handler_act.mp hh
      have hstopped : (w.device d').app.running = false → loading (w.device d') = 0 := by
        intro hrunning
        rw [loading, hguarded.stopped hrunning, List.countP_nil]
      have hcalm := h.act hstopped (fun ht => hpatient a rfl ht) henabled hact.symm
      apply hcalm.mono
      simp only [loading, pending, List.countP_append]
      omega
  | deliver d' i record =>
      obtain ⟨q, k, hr, rfl, rfl, hcall⟩ := handler_deliver.mp hh
      have hq : q ∈ pending (w.device d') :=
        List.mem_append_right _ (List.mem_map.mpr ⟨_, List.mem_of_getElem? hr, rfl⟩)
      obtain ⟨-, hcs⟩ := hguarded.callback hq hcall.symm
      have hcount := countP_of_getElem? (p := fun q => q ≠ .home)
        (show ((w.device d').client.results.map Prod.fst)[i]? = some q by simp [hr])
      rw [List.eraseIdx_map] at hcount
      rw [loading, pending, List.countP_append, hcount] at h
      rw [hcs, List.append_nil, List.countP_append]
      cases q with
      | home =>
          obtain ⟨rfl, -⟩ := Prod.mk.inj (Option.some.inj hcall)
          exact h.of_screen le_rfl rfl id
      | login number => exact Calm.completed h hcall.symm
  | fail d' i =>
      obtain ⟨q, hq, rfl, rfl, hcall⟩ := handler_fail.mp hh
      obtain ⟨-, hcs⟩ := hguarded.failed hcall.symm
      have hcalm := h.mono (m := ((w.device d').client.requests.eraseIdx i
          ++ (w.device d').client.results.map Prod.fst).countP fun q => q ≠ .home) (by
        simp only [loading, pending, List.countP_append,
          countP_of_getElem? (p := fun q => q ≠ .home) hq]
        omega)
      rw [hcs, List.append_nil]
      cases q with
      | home =>
          obtain ⟨rfl, -⟩ := Prod.mk.inj (Option.some.inj hcall)
          exact hcalm.of_screen le_rfl rfl id
      | login number =>
          obtain ⟨rfl, -⟩ := Prod.mk.inj (Option.some.inj hcall)
          refine hcalm.of_screen le_rfl rfl ?_
          rw [isSome_showAlert]
          exact id
  | snapshot d' i =>
      obtain ⟨l, -, -, -, -, -⟩ := handler_snapshot.mp hh
      apply l.tag.elim
  | kill d' => simp [handler] at hh
  | arrive d' => simp [handler] at hh
  | answer d' i => simp [handler] at hh

theorem calm_step (h : ∀ d, Calm (w.device d).app (loading (w.device d)))
    (hguarded : ∀ d, Guarded (w.device d).app (pending (w.device d)))
    (hpatient : ∀ d a, e = .act d a → a.taps → Idle (w.device d)) (hs : step w e = some w')
    (f : D) :
  Calm (w'.device f).app (loading (w'.device f))
  := by
  rcases step_cases hs with ⟨d, -, hs⟩ | ⟨d, i, -, hs⟩ | ⟨d, c, r, hh, hs⟩
  · obtain ⟨happ, hrequests, hresults⟩ := arrive_device hs f
    rw [happ, loading, pending, hrequests, hresults]
    apply h f
  · obtain ⟨q, hq, rfl⟩ := answer_cases hs
    rcases eq_or_ne f d with rfl | hf
    · rw [World.put_device_self]
      apply (h f).mono
      simp only [loading, pending, List.countP_append, List.map_append, List.map_cons,
        List.map_nil, List.countP_singleton,
        countP_of_getElem? (p := fun q => q ≠ .home) hq]
      omega
    · rw [World.put_device_of_ne hf]
      apply h f
  · rcases eq_or_ne f d with rfl | hf
    · cases r with
      | none =>
          rw [settle_self_none hs]
          apply Calm.of_idle rfl
      | some eff =>
          obtain ⟨happ, -, hrequests, hresults⟩ := settle_self hs
          rw [happ, loading, pending, hrequests, hresults]
          apply calm_handler (h f) (hguarded f) (hpatient f) hh
    · rw [settle_device_of_ne hs hf]
      apply h f

/-! ### What the label shows -/

omit [DecidableEq D] in
/-- A handler refreshes the label, or leaves no Home in front that was not there with the same
name to look up. -/
theorem view_handler (hcalm : Calm (w.device d).app (loading (w.device d)))
    (hh : handler program w e = some (d, c, some (app, cs))) (happ : (w'.device d).app = app) :
  refreshed w e w' = some d
    ∨ (OnHome w' d → OnHome w d ∧ viewName app = viewName (w.device d).app)
  := by
  -- a login screen that stays is in front of Home
  have hscreen : app.login.isSome → OnHome w' d →
      OnHome w d ∧ viewName app = viewName (w.device d).app := by
    rintro hlogin ⟨-, -, hnone⟩
    rw [happ] at hnone
    simp [hnone] at hlogin
  cases e with
  | act d' a =>
      obtain ⟨henabled, rfl, -, hact⟩ := handler_act.mp hh
      have hact : act a (w.device d').app = some (app, cs) := hact.symm
      cases does_of_act hact with
      | launch now app₀ started => exact .inl rfl
      | tappedLoginBtn email password s login fields
      | tappedNewRegisterBtn email password s login fields =>
          right
          apply hscreen
          simp [login]
      | loginAlert email password s login | registerAlert email password s login =>
          right
          apply hscreen
          rw [isSome_showAlert, login]
          rfl
      | signedIn i number uid asked =>
          have hlength := List.length_eraseIdx_add_one (List.getElem?_eq_some_iff.mp asked).1
          right
          apply hscreen
          apply hcalm.waits
          omega
      | signInFailed i number asked =>
          have hlength := List.length_eraseIdx_add_one (List.getElem?_eq_some_iff.mp asked).1
          right
          apply hscreen
          rw [isSome_showAlert]
          apply hcalm.waits
          omega
      | closeAlert =>
          have hany := (Bool.and_eq_true_iff.mp henabled).2
          right
          apply hscreen
          cases hlogin : (w.device d').app.login with
          | none => simp [hlogin] at hany
          | some s => rfl
      | logout =>
          right
          apply hscreen
          rfl
      | noName =>
          right
          intro hhome
          simp only [OnHome, happ] at hhome
          use hhome
      | backToSaveBtn reName u id nonempty record path =>
          left
          simp [refreshed, nonempty]
  | deliver d' i record =>
      obtain ⟨q, k, hr, rfl, rfl, hcall⟩ := handler_deliver.mp hh
      cases q with
      | home =>
          left
          simp [refreshed, hr]
      | login number =>
          have hlogin : (w.device d').app.login.isSome := by
            apply hcalm.waits
            have hcount := countP_of_getElem? (p := fun q => q ≠ .home)
              (show ((w.device d').client.results.map Prod.fst)[i]? = some (.login number) by
                simp [hr])
            simp only [loading, pending, List.countP_append, hcount]
            simp
          by_cases hnone : (w'.device d').app.login = none
          · left
            simp [refreshed, hr, hlogin, hnone]
          · right
            apply hscreen
            rw [← happ, Option.isSome_iff_ne_none]
            exact hnone
  | fail d' i =>
      obtain ⟨q, hq, rfl, rfl, hcall⟩ := handler_fail.mp hh
      right
      cases q with
      | home =>
          obtain ⟨rfl, -⟩ := Prod.mk.inj (Option.some.inj hcall)
          intro hhome
          simp only [OnHome, happ] at hhome
          exact ⟨hhome, rfl⟩
      | login number =>
          obtain ⟨rfl, -⟩ := Prod.mk.inj (Option.some.inj hcall)
          apply hscreen
          rw [isSome_showAlert]
          apply hcalm.waits
          have hcount := countP_of_getElem? (p := fun q => q ≠ .home) hq
          simp only [loading, pending, List.countP_append, hcount]
          simp
  | snapshot d' i =>
      obtain ⟨l, -, -, -, -, -⟩ := handler_snapshot.mp hh
      apply l.tag.elim
  | kill d' => simp [handler] at hh
  | arrive d' => simp [handler] at hh
  | answer d' i => simp [handler] at hh

omit [DecidableEq D] in
/-- An event sets the label of its own device. -/
theorem refreshed_device {f : D} {r : Option Effect} (hh : handler program w e = some (d, c, r))
    (hf : refreshed w e w' = some f) :
  f = d
  := by
  cases e with
  | act d' a =>
      obtain ⟨-, rfl, -, -⟩ := handler_act.mp hh
      cases a with
      | launch now => exact (Option.some.inj hf).symm
      | backToSaveBtn reName =>
          simp only [refreshed] at hf
          split_ifs at hf
          exact (Option.some.inj hf).symm
      | _ => cases hf
  | deliver d' i record =>
      obtain ⟨q, k, hr, rfl, -, -⟩ := handler_deliver.mp hh
      simp only [refreshed, hr, Option.bind_some] at hf
      split_ifs at hf
      exact (Option.some.inj hf).symm
  | _ => cases hf

/-- The label of Home shows the name that is looked up, wherever Home is in front. -/
def UpToDate (s : Labelled D) : Prop :=
  ∀ d, OnHome s.world d → s.label d = viewName (s.world.device d).app

/-- Setting a label leaves the labels up to date that were. -/
theorem view_label {s : Labelled D} {f : D}
    (h : f ≠ d → OnHome s.world f → s.label f = viewName (s.world.device f).app)
    (hhome : OnHome s.world f) :
  (s.view d).label f = viewName (s.world.device f).app
  := by
  rcases eq_or_ne f d with rfl | hf
  · simp [Labelled.view]
  · simp [Labelled.view, hf, h hf hhome]

/-- A step that sets the labels it refreshes leaves them up to date. -/
theorem upToDate_step {s : Labelled D} (h : UpToDate s)
    (hcalm : ∀ d, Calm (s.world.device d).app (loading (s.world.device d)))
    (hs : step s.world e = some w') :
  UpToDate ((refreshed s.world e w').elim ⟨w', s.label⟩ (Labelled.view ⟨w', s.label⟩))
  := by
  -- a device whose app is as it was shows what it showed
  have hsame : ∀ f, (w'.device f).app = (s.world.device f).app → OnHome w' f →
      s.label f = viewName (w'.device f).app := by
    intro f happ hhome
    rw [OnHome, happ] at hhome
    rw [happ]
    apply h f hhome
  rcases step_cases hs with ⟨d, rfl, hs⟩ | ⟨d, i, rfl, hs⟩ | ⟨d, c, r, hh, hs⟩
  · intro f
    apply hsame f (arrive_device hs f).1
  · intro f
    apply hsame f (answer_device hs f).1
  · have hothers : ∀ f, f ≠ d → OnHome w' f → s.label f = viewName (w'.device f).app := by
      intro f hf
      apply hsame f
      rw [settle_device_of_ne hs hf]
    have hself : refreshed s.world e w' = some d
        ∨ (OnHome w' d → s.label d = viewName (w'.device d).app) := by
      cases r with
      | none =>
          right
          rintro ⟨hrunning, -⟩
          rw [settle_self_none hs] at hrunning
          cases hrunning
      | some eff =>
          have happ := (settle_self hs).1
          apply (view_handler (hcalm d) hh happ).imp_right
          intro hview hhome
          obtain ⟨hhome', heq⟩ := hview hhome
          rw [happ, heq]
          apply h d hhome'
    cases hf : refreshed s.world e w' with
    | none =>
        intro f hhome
        rcases eq_or_ne f d with rfl | hne
        · rw [hf] at hself
          apply hself.resolve_left (by simp) hhome
        · apply hothers f hne hhome
    | some g =>
        obtain rfl := refreshed_device hh hf
        intro f hhome
        exact view_label (s := ⟨w', s.label⟩) (hothers f) hhome

/-- What holds of the devices and their labels while everybody is patient. -/
structure Orderly (s : Labelled D) : Prop where
  guarded : ∀ d, Guarded (s.world.device d).app (pending (s.world.device d))
  calm : ∀ d, Calm (s.world.device d).app (loading (s.world.device d))
  owned : Owned s.world
  upToDate : UpToDate s

omit [DecidableEq D] in
/-- Somebody is signed in while the load of a login screen is pending. -/
theorem loadsSignedIn_of_calm (h : ∀ d, Calm (w.device d).app (loading (w.device d))) :
  LoadsSignedIn w e
  := by
  rintro ⟨d, i⟩ - ⟨q, k⟩ hr hq
  apply (h d).user
  have hcount := countP_of_getElem? (p := fun q => q ≠ .home)
    (show ((w.device d).client.results.map Prod.fst)[i]? = some q by simp [Option.mem_def.mp hr])
  simp only [loading, pending, List.countP_append, hcount]
  simp [hq]

theorem orderly_look {s s' : Labelled D} {e : Sight D} (h : Orderly s) (hpatient : Patient s e)
    (hs : look s e = some s') :
  Orderly s'
  := by
  cases e with
  | viewWillAppear d =>
      obtain ⟨-, heq⟩ := Option.ite_none_right_eq_some.mp hs
      obtain rfl := Option.some.inj heq
      use h.guarded, h.calm, h.owned
      intro f hhome
      apply view_label (fun _ hhome => h.upToDate f hhome) hhome
  | event e =>
      obtain ⟨w, hw, rfl⟩ := Option.map_eq_some_iff.mp hs
      have hworld : ((refreshed s.world e w).elim ⟨w, s.label⟩
          (Labelled.view ⟨w, s.label⟩)).world = w := by
        cases refreshed s.world e w <;> rfl
      have hidle : ∀ d a, e = .act d a → a.taps → Idle (s.world.device d) := by
        rintro d a rfl ha
        apply hpatient d
        simp [tapped, ha]
      constructor
      · rw [hworld]
        apply guarded_step h.guarded hw
      · rw [hworld]
        apply calm_step h.calm h.guarded hidle hw
      · rw [hworld]
        apply owned_step h.owned (loadsSignedIn_of_calm h.calm) hw
      · apply upToDate_step h.upToDate h.calm hw

end Step

end Users

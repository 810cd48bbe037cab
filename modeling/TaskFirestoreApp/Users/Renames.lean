import TaskFirestoreApp.Users.Records
import TaskFirestoreApp.Library.Register
import Mathlib.Data.Fintype.Basic

/-!
# Renames that stick

A rename saves the last record of the user in `userLists`, and the name that is shown is that
of the last one. It sticks when every load lists the saved record after the other records of
the user, no other write of it is under way when it arrives, and no load that was answered
before it is delivered after it.
-/

namespace Users

open Backend UserInfoManager

/-- The name in a document, if it is a record. -/
def savedName (doc : Option Document) : Option String :=
  doc.bind fun d => (UserInfo.decode d).toOption.map UserInfo.name

theorem savedName_eq_some {doc : Option Document} {n : String} :
  savedName doc = some n ↔ ∃ d u, doc = some d ∧ UserInfo.decode d = .ok u ∧ u.name = n
  := by
  simp only [savedName, Option.bind_eq_some_iff, Option.map_eq_some_iff,
    Document.toOption_eq_some]
  constructor
  · rintro ⟨d, hd, u, hu, hn⟩
    use d, u, hd, hu, hn
  · rintro ⟨d, u, hd, hu, hn⟩
    use d, hd, u, hu, hn

@[simp]
theorem savedName_encode (u : UserInfo) :
  savedName (some u.encode) = some u.name
  := rfl

/-! ### The order of the records -/

/-- Every load lists the record `a` after the record `b`. -/
def Behind (a b : Creation) : Prop :=
  a.taskId < b.taskId ∧ a.createdAt ≤ b.createdAt

instance (a b : Creation) : Decidable (Behind a b) :=
  inferInstanceAs (Decidable (_ ∧ _))

/-- A load does not list a record before one that is behind it. -/
theorem pairwise_loaded {l : List Creation} {c : Collection String Document}
    (hc : c.All (RecordedDocument l)) (q : Query) :
  (loaded q c).Pairwise fun u v => ¬ Behind u.creation v.creation
  := by
  rw [loaded, Document.decodeAll, List.pairwise_filterMap]
  have hkeys : ∀ i doc u, c.lookup i = some doc → (UserInfo.decode doc).toOption = some u →
      u.taskId = i ∧ doc.field "taskId" = some (.string u.taskId)
        ∧ doc.field "createdAt" = some (.timestamp u.createdAt) := by
    intro i doc u hdoc hu
    have hu := Document.toOption_eq_some.mp hu
    obtain ⟨u', hu', hid, -⟩ := hc i doc hdoc
    obtain rfl : u' = u := by simpa [hu'] using hu
    obtain ⟨htaskId, -, -, hcreatedAt, -⟩ := UserInfo.decode_eq_ok.mp hu
    use hid, htaskId, hcreatedAt
  cases q with
  | home =>
      apply List.Pairwise.imp_of_mem _ Collection.pairwise_orderedBy
      rintro ⟨i, doc⟩ ⟨j, doc'⟩ hi hj ⟨k, k', hk, hk', hlt⟩ u hu v hv ⟨hbehind, -⟩
      obtain ⟨rfl, hu, -⟩ := hkeys i doc u (Collection.mem_orderedBy.mp hi).1 hu
      obtain ⟨rfl, hv, -⟩ := hkeys j doc' v (Collection.mem_orderedBy.mp hj).1 hv
      obtain rfl := Option.some.inj (hu.symm.trans hk)
      obtain rfl := Option.some.inj (hv.symm.trans hk')
      rcases hlt with hlt | ⟨-, hle⟩
      · apply hbehind.asymm (Value.string_lt_string.mp hlt)
      · apply hle.not_gt hbehind
  | login number =>
      apply List.Pairwise.imp_of_mem _ Collection.pairwise_orderedBy
      rintro ⟨i, doc⟩ ⟨j, doc'⟩ hi hj ⟨k, k', hk, hk', hlt⟩ u hu v hv ⟨hbehind, hle⟩
      obtain ⟨rfl, -, hu⟩ := hkeys i doc u (Collection.mem_orderedBy.mp hi).1 hu
      obtain ⟨rfl, -, hv⟩ := hkeys j doc' v (Collection.mem_orderedBy.mp hj).1 hv
      obtain rfl := Option.some.inj (hu.symm.trans hk)
      obtain rfl := Option.some.inj (hv.symm.trans hk')
      rcases hlt with hlt | ⟨-, hle'⟩
      · apply hle.not_gt (Value.timestamp_lt_timestamp.mp hlt)
      · apply hle'.not_gt hbehind

/-- What is said of the records of `a`'s user: the others are listed before `a`. -/
def BehindAll (a : Creation) (l : List Creation) : Prop :=
  ∀ b ∈ l, b.userID = a.userID → b = a ∨ Behind a b

instance (a : Creation) (l : List Creation) : Decidable (BehindAll a l) :=
  inferInstanceAs (Decidable (∀ b ∈ l, b.userID = a.userID → b = a ∨ Behind a b))

/-- The last record of the user that a load finds is the record `a`, if the others are listed
before it. -/
theorem lastRecord_loaded {l : List Creation} {c : Collection String Document}
    (hc : c.All (RecordedDocument l)) (hl : (l.map Creation.taskId).Nodup) {a : Creation}
    (ha : a ∈ l) (hbehind : BehindAll a l) {n : String}
    (hn : savedName (c.lookup a.taskId) = some n) (q : Query) :
  ∃ u, lastRecord a.userID (loaded q c) = some u ∧ u.name = n
  := by
  obtain ⟨doc, u, hdoc, hdec, rfl⟩ := savedName_eq_some.mp hn
  obtain ⟨u', hdec', hid, hu⟩ := hc _ doc hdoc
  obtain rfl : u' = u := by simpa [hdec'] using hdec
  have hcreation : u'.creation = a := List.inj_on_of_nodup_map hl hu ha hid
  have hmem : u' ∈ (loaded q c).filter fun v => v.userID = a.userID := by
    apply List.mem_filter.mpr
    use mem_loaded.mpr ⟨_, doc, hdoc, hdec⟩
    simp [← hcreation, UserInfo.creation]
  obtain ⟨v, hv⟩ : ∃ v, lastRecord a.userID (loaded q c) = some v := by
    apply Option.isSome_iff_exists.mp
    rw [lastRecord, List.getLast?_isSome]
    apply List.ne_nil_of_mem hmem
  use v, hv
  obtain ⟨hvmem, hvid⟩ := lastRecord_eq_some hv
  obtain ⟨i, doc', hdoc', hvdec⟩ := mem_loaded.mp hvmem
  obtain ⟨v', hvdec', rfl, hvl⟩ := hc i doc' hdoc'
  obtain rfl : v' = v := by simpa [hvdec'] using hvdec
  have hlast : u' = v' ∨ ¬ Behind u'.creation v'.creation := by
    obtain ⟨us, hus⟩ := List.getLast?_eq_some_iff.mp hv
    have hpairwise := (pairwise_loaded hc q).filter fun v => v.userID = a.userID
    rw [hus] at hmem hpairwise
    rcases List.mem_append.mp hmem with hmem | hmem
    · right
      apply (List.pairwise_append.mp hpairwise).2.2 _ hmem _ (List.mem_singleton_self _)
    · left
      apply List.mem_singleton.mp hmem
  rcases hlast with rfl | hlast
  · rfl
  · rcases hbehind v'.creation hvl hvid with heq | hbefore
    · have htaskId : v'.taskId = a.taskId := congrArg Creation.taskId heq
      rw [htaskId, hdoc] at hdoc'
      obtain rfl := Option.some.inj hdoc'
      obtain rfl : u' = v' := by simpa [hdec'] using hvdec
      rfl
    · exact absurd (hcreation ▸ hbefore) hlast

/-! ### The conditions -/

variable {D : Type}

/-- The device and the name of a press of the button that renames. -/
def renameOf : Event D → Option (D × String)
  | .act d (.backToSaveBtn name) => some (d, name)
  | _ => none

/-- The account `uid` is not renamed: a press needs a name, and aborts without a record. -/
def NoRename (uid : String) (w : World D) (e : Event D) : Prop :=
  ∀ p ∈ renameOf e, (w.device p.1).app.currentUser = some uid →
    p.2 = "" ∨ ¬ HasRecord (w.device p.1).app

instance (uid : String) (w : World D) (e : Event D) : Decidable (NoRename uid w e) :=
  inferInstanceAs (Decidable (∀ p ∈ renameOf e, (w.device p.1).app.currentUser = some uid →
    p.2 = "" ∨ ¬ HasRecord (w.device p.1).app))

/-- When the last write of the document `id` from `d` arrives, no write of it from another
device with another name than `n` is under way. -/
def ArrivesLast [DecidableEq D] (id : String) (d : D) (n : String) (w : World D) (e : Event D) :
    Prop :=
  e = .arrive d → ((w.register savedName id).queue d).length = 1 →
    ∀ f, f ≠ d → ∀ v ∈ (w.register savedName id).queue f, v = some n

instance [DecidableEq D] [Fintype D] (id : String) (d : D) (n : String) (w : World D)
    (e : Event D) : Decidable (ArrivesLast id d n w e) :=
  inferInstanceAs (Decidable (e = .arrive d → ((w.register savedName id).queue d).length = 1 →
    ∀ f, f ≠ d → ∀ v ∈ (w.register savedName id).queue f, v = some n))

/-- A load that is delivered to the account `uid` on `d`, or on any device once no write of
the document `id` from `d` is under way, was answered with the name in `id` that its device
sees now. -/
def Fresh [DecidableEq D] (uid id : String) (d : D) (w : World D) (e : Event D) : Prop :=
  ∀ p ∈ e.delivery, ∀ r ∈ (w.device p.1).client.results[p.2]?,
    (w.device p.1).app.currentUser = some uid →
    p.1 = d ∨ (w.register savedName id).queue d = [] →
    savedName (r.2.lookup id) = savedName ((w.view p.1).lookup id)

instance [DecidableEq D] (uid id : String) (d : D) (w : World D) (e : Event D) :
    Decidable (Fresh uid id d w e) :=
  inferInstanceAs (Decidable (∀ p ∈ e.delivery, ∀ r ∈ (w.device p.1).client.results[p.2]?,
    (w.device p.1).app.currentUser = some uid →
    p.1 = d ∨ (w.register savedName id).queue d = [] →
    savedName (r.2.lookup id) = savedName ((w.view p.1).lookup id)))

/-! ### Steps -/

section Step

variable [DecidableEq D] {l : List Creation} {w w' : World D} {e : Event D} {d f : D}
  {a : Creation} {uid n : String}

/-- While the user of a record is not renamed, its document changes by arrivals only. -/
theorem register_quiet (h : Recorded l w) (ha : a ∈ l) (huid : a.userID = describing (some uid))
    (hno : NoRename uid w e) (hs : step w e = some w') :
  w'.register savedName a.taskId = w.register savedName a.taskId
    ∨ ∃ d, e = .arrive d
      ∧ w'.register savedName a.taskId = (w.register savedName a.taskId).arrive d
  := by
  rcases step_cases hs with ⟨d, rfl, hs⟩ | ⟨d, i, rfl, hs⟩ | ⟨d, c, r, hh, hs⟩
  · obtain ⟨x, ws, hx, -⟩ := arrive_cases hs
    by_cases hid : x.id = a.taskId
    · right
      exact ⟨d, rfl, by simp [register_arrive savedName a.taskId hx hs, hid]⟩
    · left
      simp [register_arrive savedName a.taskId hx hs, hid]
  · left
    apply register_answer savedName a.taskId hs
  · obtain ⟨hc, -, -⟩ := handler_client hh
    cases r with
    | none => exact .inl (register_settle_none savedName a.taskId hc hs)
    | some eff =>
        obtain ⟨app, cs⟩ := eff
        have hreg := register_settle savedName a.taskId hc hs
        refine .inl (hreg.trans ?_)
        have hquiet : ∀ x ∈ cs.filterMap Command.written, x.id ≠ a.taskId := by
          intro x hx hid
          rcases h.mem_written hh hx with ⟨u, name, hr, rfl⟩ | ⟨u, hr, rfl⟩
          · obtain ⟨hu, huserID⟩ := lastRecord_eq_some hr.record
            have hcreation : u.creation = a :=
              List.inj_on_of_nodup_map h.nodup (h.versions.app d u hu) ha hid
            have huser : (w.device d).app.currentUser = some uid := by
              apply describing_injective
              rw [← huid, ← hcreation]
              apply huserID.symm
            rcases hno (d, name) (by rw [hr.event]; rfl) huser with hname | hnone
            · apply hr.nonempty hname
            · apply hnone ⟨u, hu, huserID⟩
          · apply (settle_issued hs).2 u.taskId (by simp [hr.drawn])
            have hid' : u.taskId = a.taskId := hid
            rw [hid']
            apply (h.issued a ha).1
        have hnil : (cs.filterMap Command.written).filter (fun x => x.id = a.taskId) = [] := by
          apply List.filter_eq_nil_iff.mpr
          intro x hx
          simpa using hquiet x hx
        rw [hnil, List.map_nil, Register.issue_nil]

/-- The record `a` was created, and the device `d` has the last word with its name `n`. -/
structure Renamed (l : List Creation) (a : Creation) (d : D) (n : String) (w : World D) : Prop where
  recorded : Recorded l w
  created : a ∈ l
  lastWord : (w.register savedName a.taskId).LastWord d (some n)

theorem renamed_step (h : Renamed l a d n w) (huid : a.userID = describing (some uid))
    (hno : NoRename uid w e) (hlast : ArrivesLast a.taskId d n w e) (hs : step w e = some w') :
  Renamed (l ++ created w e) a d n w'
  := by
  constructor
  · apply recorded_step h.recorded hs
  · apply List.mem_append_left _ h.created
  · rcases register_quiet h.recorded h.created huid hno hs with heq | ⟨f, rfl, heq⟩
    · rw [heq]
      apply h.lastWord
    · rw [heq]
      apply h.lastWord.arrive
      rintro rfl hlength
      apply hlast rfl hlength

omit [DecidableEq D] in
/-- A load that has the name `n` in the record `a` leaves it last. -/
theorem lastRecord_delivered (h : Recorded l w) (ha : a ∈ l) (hbehind : BehindAll a l)
    {r : Query × Collection String Document} (hr : r ∈ (w.device f).client.results)
    (hn : savedName (r.2.lookup a.taskId) = some n) (userLists : List UserInfo) :
  ∃ u, lastRecord a.userID (userLists ++ loaded r.1 r.2) = some u ∧ u.name = n
  := by
  obtain ⟨u, hu, hname⟩ :=
    lastRecord_loaded (h.versions.results f r hr) h.nodup ha hbehind hn r.1
  use u
  rw [lastRecord_append, hu]
  exact ⟨rfl, hname⟩

/-- A load that has the name `n` in the record `a` is delivered to its user: the last record
in `userLists` has this name. -/
theorem named_of_deliver (h : Recorded l w) (ha : a ∈ l) (hbehind : BehindAll a l)
    (huid : a.userID = describing (some uid)) (huser : (w.device f).app.currentUser = some uid)
    {i : ℕ} {x : NewRecord} (hfresh : ∀ r ∈ (w.device f).client.results[i]?,
      savedName (r.2.lookup a.taskId) = some n)
    (hs : step w (.deliver f i x) = some w') :
  (w'.device f).app.currentUser = some uid
    ∧ ∃ u, lastRecord a.userID (w'.device f).app.userLists = some u ∧ u.name = n
  := by
  obtain ⟨⟨g, c, r⟩, hh, hsettle⟩ := Option.bind_eq_some_iff.mp hs
  obtain ⟨q, k, hk, rfl, -, hcall⟩ := handler_deliver.mp hh
  have hmem := List.mem_of_getElem? hk
  have hlast := lastRecord_delivered h ha hbehind hmem (hfresh _ hk)
  have huserID : (w.device f).app.userID = a.userID := by rw [App.userID, huser, huid]
  obtain ⟨⟨app, cs⟩, heff⟩ := callback_eq_some q k x (w.device f).app
  obtain rfl : r = some (app, cs) := hcall.trans heff
  obtain ⟨happ, -⟩ := settle_self hsettle
  rw [happ]
  rcases callback_cases hk heff with ⟨u, hr⟩ | hr
  · obtain ⟨j, number, k', y, he, hk', -, habsent, -⟩ := hr.delivery
    cases he
    obtain ⟨rfl, rfl⟩ := Prod.mk.inj (Option.some.inj (hk.symm.trans hk'))
    obtain ⟨v, hv, -⟩ := hlast []
    obtain ⟨hv, hvid⟩ := lastRecord_eq_some hv
    rw [← huserID] at hvid
    exact absurd hvid (habsent v (List.mem_append_right _ hv))
  · cases hr with
    | loads j q' k' y event result userLists session login found commands =>
        cases event
        obtain ⟨rfl, rfl⟩ := Prod.mk.inj (Option.some.inj (hk.symm.trans result))
        rw [session.2, userLists]
        exact ⟨huser, hlast _⟩
    | clears a event q userLists commands => cases event
    | fails i event userLists session lastLoad commands => cases event
    | keeps a event userLists session login lastLoad running commands => cases event

/-- If the account `uid` is signed in, its last record in `userLists` has the name `n`. -/
def ShowsName (uid n : String) (app : App) : Prop :=
  app.currentUser = some uid → ∀ u, lastRecord app.userID app.userLists = some u → u.name = n

theorem showsName_of_nil {app : App} (h : app.userLists = []) :
  ShowsName uid n app
  := by
  intro _ u hu
  simp [h] at hu

/-- A device goes on to show the name, if the loads that are delivered to the user have it. -/
theorem showsName_step (h : Recorded l w) (ha : a ∈ l) (hbehind : BehindAll a l)
    (huid : a.userID = describing (some uid)) (hno : NoRename uid w e)
    (hfresh : ∀ i x, e = .deliver f i x → (w.device f).app.currentUser = some uid →
      ∀ r ∈ (w.device f).client.results[i]?, savedName (r.2.lookup a.taskId) = some n)
    (hshows : ShowsName uid n (w.device f).app) (hs : step w e = some w') :
  ShowsName uid n (w'.device f).app
  := by
  have hdeliver : ∀ i x, e = .deliver f i x → (w.device f).app.currentUser = some uid →
      ShowsName uid n (w'.device f).app := by
    rintro i x rfl huser huser' u hu
    obtain ⟨-, v, hv, hname⟩ :=
      named_of_deliver h ha hbehind huid huser (hfresh i x rfl huser) hs
    rw [App.userID, huser', ← huid, hv] at hu
    cases hu
    apply hname
  rcases app_step hs f with happ | happ | ⟨c, cs, hh, -⟩
  · rwa [happ]
  · apply showsName_of_nil
    rw [happ]
    rfl
  · intro huser
    rcases handler_cases hh with ⟨u, name, hr⟩ | ⟨u, hr⟩ | hr
    · obtain ⟨hu, huserID⟩ := lastRecord_eq_some hr.record
      have huser' : (w.device f).app.currentUser = some uid := by
        rw [hr.app] at huser
        apply huser
      rcases hno (f, name) (by rw [hr.event]; rfl) huser' with hname | hnone
      · exact absurd hname hr.nonempty
      · exact absurd ⟨u, hu, huserID⟩ hnone
    · obtain ⟨i, number, k, x, he, -⟩ := hr.delivery
      apply hdeliver i x he (hr.currentUser ▸ huser) huser
    · cases hr with
      | loads i q k x event result userLists session login found commands =>
          apply hdeliver i x event (session.2 ▸ huser) huser
      | clears a event q userLists commands => apply showsName_of_nil userLists huser
      | fails i event userLists session lastLoad commands =>
          rw [App.userID, session, userLists]
          apply hshows (session ▸ huser)
      | keeps a event userLists session login lastLoad running commands =>
          rcases session with session | session
          · rw [App.userID, session, userLists]
            apply hshows (session ▸ huser)
          · simp [session] at huser

/-- A device sees the renamed record: it is the one that renamed it, or the rename has
arrived. -/
structure Settled (l : List Creation) (a : Creation) (d : D) (n : String) (f : D) (w : World D) :
    Prop where
  renamed : Renamed l a d n w
  behind : BehindAll a l
  sees : f = d ∨ (w.register savedName a.taskId).queue d = []

omit [DecidableEq D] in
theorem Settled.view (h : Settled l a d n f w) :
  savedName ((w.view f).lookup a.taskId) = some n
  := by
  rw [← register_view savedName]
  rcases h.sees with rfl | harrived
  · apply h.renamed.lastWord.view_self
  · apply h.renamed.lastWord.view_of_arrived harrived f

/-- Everything that is asked of a step after the rename of the record `a` on `d`. -/
structure Undisturbed (uid : String) (a : Creation) (d : D) (n : String) (w : World D)
    (e : Event D) : Prop where
  noRename : NoRename uid w e
  behind : BehindAll a (created w e)
  arrivesLast : ArrivesLast a.taskId d n w e
  fresh : Fresh uid a.taskId d w e

theorem settled_step (h : Settled l a d n f w) (huid : a.userID = describing (some uid))
    (hC : Undisturbed uid a d n w e) (hs : step w e = some w') :
  Settled (l ++ created w e) a d n f w'
  := by
  constructor
  · apply renamed_step h.renamed huid hC.noRename hC.arrivesLast hs
  · intro b hb
    rcases List.mem_append.mp hb with hb | hb
    · apply h.behind b hb
    · apply hC.behind b hb
  · rcases h.sees with hf | harrived
    · left
      apply hf
    · refine .inr ?_
      rcases register_quiet h.renamed.recorded h.renamed.created huid hC.noRename hs with
        heq | ⟨g, -, heq⟩
      · rw [heq, harrived]
      · rw [heq]
        rcases eq_or_ne d g with rfl | hg
        · simp [harrived]
        · rw [Register.arrive_queue_of_ne hg, harrived]

/-- A load that is delivered to the user has the name. -/
theorem Settled.fresh (h : Settled l a d n f w) (hC : Undisturbed uid a d n w e) {i : ℕ}
    {x : NewRecord} (he : e = .deliver f i x) (huser : (w.device f).app.currentUser = some uid) :
  ∀ r ∈ (w.device f).client.results[i]?, savedName (r.2.lookup a.taskId) = some n
  := by
  intro r hr
  rw [← h.view]
  apply hC.fresh (f, i) (Event.delivery_eq_some.mpr ⟨x, he⟩) r hr huser h.sees

/-- The device `f` sees the renamed record and shows its name. -/
structure Shows (l : List Creation) (a : Creation) (d : D) (n uid : String) (f : D)
    (w : World D) : Prop where
  settled : Settled l a d n f w
  shows : ShowsName uid n (w.device f).app

theorem shows_step (h : Shows l a d n uid f w) (huid : a.userID = describing (some uid))
    (hC : Undisturbed uid a d n w e) (hs : step w e = some w') :
  Shows (l ++ created w e) a d n uid f w'
  where
  settled := settled_step h.settled huid hC hs
  shows := by
    apply showsName_step h.settled.renamed.recorded h.settled.renamed.created h.settled.behind
      huid hC.noRename _ h.shows hs
    intro i x he huser
    apply h.settled.fresh hC he huser

theorem shows_of_run {es : List (Event D)} (h : Shows l a d n uid f w)
    (huid : a.userID = describing (some uid)) (hC : Run.Along step (Undisturbed uid a d n) w es)
    (hs : run w es = some w') :
  Shows (l ++ creations w es) a d n uid f w'
  := by
  apply Run.exec_induction (P := fun l w => Shows l a d n uid f w) _ h hC hs
  intro l w e w' hw hC hs
  apply shows_step hw huid hC hs

/-- A load that is completed for the user shows the name. -/
theorem shows_of_deliver (h : Settled l a d n f w) (huid : a.userID = describing (some uid))
    {i : ℕ} {x : NewRecord} (hC : Undisturbed uid a d n w (.deliver f i x))
    (huser : (w.device f).app.currentUser = some uid)
    (hs : step w (.deliver f i x) = some w') :
  HasRecord (w'.device f).app ∧ Shows (l ++ created w (.deliver f i x)) a d n uid f w'
  := by
  obtain ⟨huser', u, hu, hname⟩ := named_of_deliver h.renamed.recorded h.renamed.created h.behind
    huid huser (h.fresh hC rfl huser) hs
  have huserID : (w'.device f).app.userID = a.userID := by rw [App.userID, huser', huid]
  refine ⟨⟨u, ?_⟩, settled_step h huid hC hs, ?_⟩
  · rw [huserID]
    apply lastRecord_eq_some hu
  · intro _ v hv
    rw [huserID, hu] at hv
    cases hv
    apply hname

/-! ### Runs -/

/-- The user of the device `d` is `uid`. -/
def InSession (uid : String) (d : D) (w : World D) : Prop :=
  (w.device d).app.running ∧ (w.device d).app.currentUser = some uid

instance (uid : String) (d : D) (w : World D) : Decidable (InSession uid d w) :=
  inferInstanceAs (Decidable (_ ∧ _))

/-- If `userLists` has a record of the user, the name that is looked up is `n`. -/
def Named (n : String) (app : App) : Prop :=
  HasRecord app → getNameAtCurrentUserID app.userID app.userLists = n

omit [DecidableEq D] in
theorem named_of_showsName (h : ShowsName uid n (w.device d).app) (hsession : InSession uid d w) :
  Named n (w.device d).app
  := by
  rintro ⟨v, hv, hid⟩
  cases hu : lastRecord (w.device d).app.userID (w.device d).app.userLists with
  | none => exact absurd hid (lastRecord_eq_none.mp hu v hv)
  | some u =>
      rw [getNameAtCurrentUserID, lastAtCurrentUserID_eq, hu]
      apply h hsession.2 u hu

/-- At the end of the run of the events from the start, the account `uid` renames itself to
`n` on the device `d`, which saves the record `u`. -/
structure Rename (es : List (Event D)) (d : D) (n uid : String) (u : UserInfo) (w w' : World D) :
    Prop where
  run : run World.initial es = some w
  user : (w.device d).app.currentUser = some uid
  nonempty : n ≠ ""
  record : lastRecord (w.device d).app.userID (w.device d).app.userLists = some u
  press : step w (.act d (.backToSaveBtn n)) = some w'

/-- The rename sticks in the run of the events from `w`. As long as the account is not renamed
again, its name is `n` in its session on `d`; and when no write of its document `id` from `d`
is under way any more, also from every completed load on in a session on any device. -/
structure Sticks (id : String) (d : D) (n uid : String) (w : World D) (es : List (Event D)) :
    Prop where
  session : ∀ w', run w es = some w' → Run.Along step (NoRename uid) w es →
    Run.Along step (fun w _ => InSession uid d w) w es → InSession uid d w' →
    Named n (w'.device d).app
  reload : ∀ es₁ f i x es₂ w₁ w₂ w', es = es₁ ++ .deliver f i x :: es₂ →
    run w es₁ = some w₁ → step w₁ (.deliver f i x) = some w₂ → run w₂ es₂ = some w' →
    Run.Along step (NoRename uid) w es →
    (∀ y ∈ (w₁.device d).client.unarrived, y.id ≠ id) → InSession uid f w₁ →
    Run.Along step (fun w _ => InSession uid f w) w₂ es₂ → InSession uid f w' →
    HasRecord (w₂.device f).app ∧ Named n (w'.device f).app

/-- After a rename its device shows the name. -/
theorem shows_of_rename {es : List (Event D)} {u : UserInfo} (h : Rename es d n uid u w w')
    (hbehind : BehindAll u.creation (creations World.initial es)) :
  Shows (creations World.initial es) u.creation d n uid d w'
  := by
  have hrec := recorded_of_run h.run
  obtain ⟨hmem, -⟩ := lastRecord_eq_some h.record
  have hu := hrec.versions.app d u hmem
  have hrec' : Recorded (creations World.initial es) w' := by
    have := recorded_step hrec h.press
    rwa [show created w (.act d (.backToSaveBtn n)) = [] from rfl, List.append_nil] at this
  obtain ⟨⟨f, c, r⟩, hh, hsettle⟩ := Option.bind_eq_some_iff.mp h.press
  obtain ⟨-, rfl, rfl, hr⟩ := handler_act.mp hh
  have hsaved := TaskEditUserInfoViewController.backToSaveBtn_eq_some h.nonempty h.record
    (hrec.segment hmem)
  obtain rfl := hr.trans hsaved
  constructor
  · refine ⟨⟨hrec', hu, ?_⟩, hbehind, .inl rfl⟩
    have hwritten : ([.write (.set u.taskId { u with name := n }.encode)] : List Command).filterMap
        Command.written = [.set u.taskId { u with name := n }.encode] := rfl
    rw [register_settle savedName u.creation.taskId rfl hsettle, hwritten]
    simp only [UserInfo.creation, Write.id_set, decide_true, List.filter_cons_of_pos,
      List.filter_nil, List.map_cons, List.map_nil, Write.doc_set, savedName_encode]
    apply Register.lastWord_issue
  · obtain ⟨happ, -⟩ := settle_self hsettle
    rw [happ]
    intro _ v hv
    have hv' : lastRecord (w.device d).app.userID (setNameAtCurrentUserID n
        (w.device d).app.userID (w.device d).app.userLists) = some v := hv
    rw [lastRecord_setName, h.record] at hv'
    cases hv'
    rfl

/-- A rename sticks in a run from the start, if every load lists the other records of the
account that are created in the run before the saved one, no write of it with another name is
under way from another device when the rename arrives, and no load is delivered to the account
that was answered with an older name, on the device of the rename or, after the rename has
arrived, on any device. -/
theorem rename_sticks {es es' : List (Event D)} {u : UserInfo} (h : Rename es d n uid u w w')
    (hbehind : BehindAll u.creation
      (creations World.initial (es ++ .act d (.backToSaveBtn n) :: es')))
    (hlast : Run.Along step (ArrivesLast u.taskId d n) w' es')
    (hfresh : Run.Along step (Fresh uid u.taskId d) w' es') :
  Sticks u.taskId d n uid w' es'
  := by
  have huid : u.creation.userID = describing (some uid) := by
    rw [← h.user]
    apply (lastRecord_eq_some h.record).2
  rw [creations, Run.log_append h.run, Run.log_cons h.press] at hbehind
  have hshows := shows_of_rename h fun b hb => hbehind b (List.mem_append_left _ hb)
  have hC : Run.Along step (NoRename uid) w' es' →
      Run.Along step (Undisturbed uid u.creation d n) w' es' := by
    intro hno
    have hcreated : Run.Along step (fun w e => BehindAll u.creation (created w e)) w' es' := by
      apply Run.along_of_log
      intro b hb
      apply hbehind b
      apply List.mem_append_right _ (List.mem_append_right _ hb)
    apply ((hno.and hcreated).and (hlast.and hfresh)).imp
    rintro w e ⟨⟨hno, hcreated⟩, hlast, hfresh⟩
    use hno, hcreated, hlast, hfresh
  constructor
  · intro w₁ hs hno _ hsession
    apply named_of_showsName (shows_of_run hshows huid (hC hno) hs).shows hsession
  · rintro es₁ f i x es₂ w₁ w₂ w₃ rfl h₁ hs h₂ hno harrived hsession₁ - hsession
    have hC := hC hno
    rw [Run.along_append h₁, Run.along_cons hs] at hC
    obtain ⟨hC₁, hCe, hC₂⟩ := hC
    have hshows₁ := shows_of_run hshows huid hC₁ h₁
    have hqueue : (w₁.register savedName u.creation.taskId).queue d = [] := by
      simp only [World.register, List.map_eq_nil_iff, List.filter_eq_nil_iff, decide_eq_true_eq]
      apply harrived
    obtain ⟨hrecord, hshows₂⟩ := shows_of_deliver
      ⟨hshows₁.settled.renamed, hshows₁.settled.behind, .inr hqueue⟩ huid hCe hsession₁.2 hs
    use hrecord
    apply named_of_showsName (shows_of_run hshows₂ huid hC₂ h₂).shows hsession

end Step

/-- The user registers, is renamed, and logs in on a second device. -/
theorem rename_sticks_arrived :
  ∃ w ∈ run World.initial (launches true ++ loads true (record "a" (by decide))
      ++ registers true "u" ++ loads true (record "t" (by decide))),
    ∃ w' ∈ step w (.act true (.backToSaveBtn "n")), ∃ u : UserInfo,
      Sticks u.taskId true "n" "u" w' ([.arrive true, .arrive true] ++ launches false
        ++ loads false (record "b" (by decide)) ++ logsIn false "u"
        ++ loads false (record "z" (by decide)))
  := by
  have hrun : ∃ w ∈ run World.initial (launches true ++ loads true (record "a" (by decide))
      ++ registers true "u" ++ loads true (record "t" (by decide))),
      (w.device true).app.currentUser = some "u"
      ∧ ∃ u ∈ lastRecord (w.device true).app.userID (w.device true).app.userLists,
        BehindAll u.creation (creations World.initial (launches true
          ++ loads true (record "a" (by decide)) ++ registers true "u"
          ++ loads true (record "t" (by decide)) ++ .act true (.backToSaveBtn "n") ::
          ([.arrive true, .arrive true] ++ launches false ++ loads false (record "b" (by decide))
            ++ logsIn false "u" ++ loads false (record "z" (by decide)))))
        ∧ ∃ w' ∈ step w (.act true (.backToSaveBtn "n")),
          Run.Along step (ArrivesLast u.taskId true "n") w' ([.arrive true, .arrive true]
            ++ launches false ++ loads false (record "b" (by decide)) ++ logsIn false "u"
            ++ loads false (record "z" (by decide)))
          ∧ Run.Along step (Fresh "u" u.taskId true) w' ([.arrive true, .arrive true]
            ++ launches false ++ loads false (record "b" (by decide)) ++ logsIn false "u"
            ++ loads false (record "z" (by decide))) := by
    decide +kernel
  obtain ⟨w, hw, huser, u, hu, hbehind, w', hw', hlast, hfresh⟩ := hrun
  use w, hw, w', hw', u
  apply rename_sticks ⟨hw, huser, by decide, hu, hw'⟩ hbehind hlast hfresh

/-- Home's load is answered before the rename and delivered after it. -/
theorem not_rename_sticks :
  ¬ ∀ (es es' : List (Event Unit)) d n uid u w w', Rename es d n uid u w w' →
    Sticks u.taskId d n uid w' es'
  := by
  intro h
  have hrun : ∃ w ∈ run World.initial (launches () ++ registers () "u"
      ++ [.answer () 1, .deliver () 0 (record "t" (by decide)), .answer () 0]),
      (w.device ()).app.currentUser = some "u"
      ∧ ∃ u ∈ lastRecord (w.device ()).app.userID (w.device ()).app.userLists,
        ∃ w' ∈ step w (.act () (.backToSaveBtn "n")),
        ∃ w'' ∈ run w' [.deliver () 0 (record "a" (by decide))],
          Run.Along step (NoRename "u") w' [.deliver () 0 (record "a" (by decide))]
          ∧ Run.Along step (fun w _ => InSession "u" () w) w'
            [.deliver () 0 (record "a" (by decide))]
          ∧ InSession "u" () w'' ∧ HasRecord (w''.device ()).app
          ∧ getNameAtCurrentUserID (w''.device ()).app.userID (w''.device ()).app.userLists
            ≠ "n" := by
    decide +kernel
  obtain ⟨w, hw, huser, u, hu, w', hw', w'', hw'', hno, halong, hsession, hrecord, hname⟩ := hrun
  apply hname
  apply (h _ _ () "n" "u" u w w' ⟨hw, huser, by decide, hu, hw'⟩).session w'' hw'' hno halong
    hsession hrecord

end Users

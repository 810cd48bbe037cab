import TaskFirestoreApp.Groups.Registers
import Mathlib.Data.Fintype.Basic

/-!
# Row numbers

A chat and the table of the list refer to groups by row numbers of `groupInfo`. A chat stays
with its group exactly as long as every list that is put in the place of `groupInfo` has the group
at the number of the chat, and a row of the list does when every list delivered under it has the
group it shows there. A chat then sends to the group it was opened on, and a swipe deletes the
group its row shows, if there is an entry at the row at all; without it they act on another
group.
-/

namespace Groups

open Backend

variable {D : Type}

/-- The group `t` stands at the row `k` of the list. -/
def StandsAt (k : ℕ) (t : String) (l : List GroupInfo) : Prop :=
  ∃ g ∈ l[k]?, g.taskId = t

instance (k : ℕ) (t : String) (l : List GroupInfo) : Decidable (StandsAt k t l) :=
  inferInstanceAs (Decidable (∃ g ∈ l[k]?, g.taskId = t))

/-- The row `k` of the list holds the group `t`, or is beyond its end. -/
def HoldsAt (k : ℕ) (t : String) (l : List GroupInfo) : Prop :=
  ∀ g ∈ l[k]?, g.taskId = t

instance (k : ℕ) (t : String) (l : List GroupInfo) : Decidable (HoldsAt k t l) :=
  inferInstanceAs (Decidable (∀ g ∈ l[k]?, g.taskId = t))

section Row

variable {k n : ℕ} {t : String} {l : List GroupInfo} {g g' : GroupInfo}

theorem not_standsAt_nil :
  ¬ StandsAt k t []
  := by
  rintro ⟨g, ⟨⟩, -⟩

/-- Changing an entry but for its taskId changes no row. -/
theorem StandsAt.set (h : StandsAt k t l) (hg : l[n]? = some g) (hid : g'.taskId = g.taskId) :
  StandsAt k t (l.set n g')
  := by
  obtain ⟨a, ha, hat⟩ := h
  rcases eq_or_ne n k with rfl | hk
  · obtain rfl : g = a := Option.some.inj (hg.symm.trans ha)
    use g', TaskGroupDetailViewController.getElem?_set_of_some hg g', hid.trans hat
  · use a, by rwa [List.getElem?_set_ne hk], hat

/-- An entry that is appended changes no row. -/
theorem StandsAt.append (h : StandsAt k t l) (l' : List GroupInfo) :
  StandsAt k t (l ++ l')
  := by
  obtain ⟨a, ha, hat⟩ := h
  obtain ⟨hlt, -⟩ := List.getElem?_eq_some_iff.mp ha
  use a, by rwa [List.getElem?_append_left hlt], hat

theorem holdsAt_nil :
  HoldsAt k t []
  := by
  rintro g ⟨⟩

/-- Changing an entry but for its taskId changes no row. -/
theorem HoldsAt.set (h : HoldsAt k t l) (hg : l[n]? = some g) (hid : g'.taskId = g.taskId) :
  HoldsAt k t (l.set n g')
  := by
  intro a ha
  rcases eq_or_ne n k with rfl | hk
  · obtain ⟨hlt, -⟩ := List.getElem?_eq_some_iff.mp hg
    obtain rfl : g' = a := by simpa [hlt] using ha
    rw [hid, h g hg]
  · rw [List.getElem?_set_ne hk] at ha
    apply h a ha

end Row

/-- The device and the row of a tap on the list. -/
def tapOf : Event D → Option (D × ℕ)
  | .act d (.didSelectRowAt row) => some (d, row)
  | _ => none

theorem tapOf_eq_some {e : Event D} {d : D} {row : ℕ} :
  tapOf e = some (d, row) ↔ e = .act d (.didSelectRowAt row)
  := by
  constructor
  · intro h
    unfold tapOf at h
    split at h
    · cases h
      rfl
    · cases h
  · rintro rfl
    rfl

/-- The device and the group name of a press of the create button. -/
def creationOf : Event D → Option (D × String)
  | .act d (.makeGroupBtn groupName _ _ _) => some (d, groupName)
  | _ => none

section Handler

variable {w w' : World D} {e : Event D} {d : D}
  {c : Client String Document Query Chat} {app : App} {cs : List Command} {k : ℕ} {t : String}

/-- A handler keeps a group at its row while a chat is on the stack, if the list it is delivered
has the group there and the list is not taken away from under the chat. -/
theorem standsAt_handler (hh : handler program w e = some (d, c, some (app, cs)))
    {s s' : ChatScreen} (hs : s ∈ (w.device d).app.chat) (hs' : s' ∈ app.chat)
    (h : StandsAt k t (w.device d).app.groupInfo)
    (hdeliver : ∀ i, e.delivery = some (d, i) →
      ∀ r ∈ (w.device d).client.results[i]?,
        Presentable r.1 (listAfter r.1 r.2 (w.device d).app.groupInfo) →
        StandsAt k t (listAfter r.1 r.2 (w.device d).app.groupInfo))
    (hbares : ¬ Bares w d e) :
  StandsAt k t app.groupInfo
  := by
  rcases handler_cases hh with ⟨g, message, now, hs⟩ | ⟨screen, g, hs⟩ | ⟨row, g, hdeletes⟩ | hs
  · obtain ⟨s, -, hg, rfl, -⟩ := hs.chat
    refine h.set hg ?_
    rfl
  · rw [hs.app]
    apply h.append
  · -- the list is in front when a row is swiped
    obtain rfl := hdeletes.event
    obtain ⟨henabled, -, -, -⟩ := handler_act.mp hh
    simp [program, enabled, Option.mem_def.mp hs] at henabled
  · cases hs.shows with
    | taps row g event entry happ commands => rwa [happ]
    | appears s g chat entry happ commands => rwa [happ]
    | delivers i q c event result groupInfo presentable front rows chat commands =>
        subst event
        rw [groupInfo]
        apply hdeliver i rfl (q, c) result (groupInfo ▸ presentable)
    | clears groupInfo rows chat registered =>
        rcases chat with hnone | ⟨hbares', -⟩
        · rw [hnone] at hs'
          cases hs'
        · exact absurd hbares' hbares
    | keeps groupInfo front rows chat registered => rwa [groupInfo]

/-- A handler leaves a row with the group it shows if the list it is delivered has the group
there, and no group is created. -/
theorem holdsAt_handler (hh : handler program w e = some (d, c, some (app, cs)))
    (h : HoldsAt k t (w.device d).app.groupInfo)
    (hdeliver : ∀ i, e.delivery = some (d, i) →
      ∀ r ∈ (w.device d).client.results[i]?,
        Presentable r.1 (listAfter r.1 r.2 (w.device d).app.groupInfo) →
        HoldsAt k t (listAfter r.1 r.2 (w.device d).app.groupInfo))
    (hcreate : ∀ groupName, creationOf e ≠ some (d, groupName)) :
  HoldsAt k t app.groupInfo
  := by
  rcases handler_cases hh with ⟨g, message, now, hs⟩ | ⟨screen, g, hs⟩ | ⟨row, g, hs⟩ | hs
  · obtain ⟨s, -, hg, rfl, -⟩ := hs.chat
    refine h.set hg ?_
    rfl
  · obtain ⟨groupName, createdAt, updatedAt, rfl, -, -⟩ := hs.event
    exact absurd rfl (hcreate groupName)
  · rw [hs.app]
    apply holdsAt_nil
  · cases hs.shows with
    | taps row g event entry happ commands => rwa [happ]
    | appears s g chat entry happ commands => rwa [happ]
    | delivers i q c event result groupInfo presentable front rows chat commands =>
        subst event
        rw [groupInfo]
        apply hdeliver i rfl (q, c) result (groupInfo ▸ presentable)
    | clears groupInfo rows chat registered =>
        rw [groupInfo]
        apply holdsAt_nil
    | keeps groupInfo front rows chat registered => rwa [groupInfo]

/-- The chat on screen was there before the handler, or it is pushed by a tap on a row. -/
theorem chat_cases (hh : handler program w e = some (d, c, some (app, cs))) {s : ChatScreen}
    (hs : s ∈ app.chat) :
  (∃ s' ∈ (w.device d).app.chat, s'.chat = s.chat)
    ∨ ∃ row shown, e = .act d (.didSelectRowAt row) ∧ (w.device d).app.rows[row]? = some shown
      ∧ s.chat.groupNumber = row ∧ s.chat.openedOn = shown.taskId
      ∧ app.groupInfo = (w.device d).app.groupInfo
  := by
  have same : app.chat.map ChatScreen.chat = (w.device d).app.chat.map ChatScreen.chat →
      ∃ s' ∈ (w.device d).app.chat, s'.chat = s.chat := by
    intro h
    rw [Option.mem_def.mp hs, Option.map_some, eq_comm, Option.map_eq_some_iff] at h
    apply h
  rcases handler_cases hh with ⟨g, message, now, hs'⟩ | ⟨screen, g, hs'⟩ | ⟨row, g, hs'⟩ | hs'
  · obtain ⟨s', -, -, rfl, -⟩ := hs'.chat
    left
    use s, hs
  · rw [hs'.app] at hs
    left
    use s, hs
  · rw [hs'.app] at hs
    left
    use s, hs
  · cases hs'.shows with
    | taps row g event entry happ commands =>
        subst event
        obtain ⟨henabled, -, -, -⟩ := handler_act.mp hh
        have hrow : row < (w.device d).app.rows.length := by
          simp only [program, enabled, Bool.and_eq_true, decide_eq_true_eq] at henabled
          apply henabled.2
        rw [happ] at hs
        obtain rfl := Option.some.inj hs
        refine .inr ⟨row, (w.device d).app.rows[row], rfl, by simp, rfl, ?_, by rw [happ]⟩
        simp [hrow]
    | appears s' g chat entry happ commands =>
        apply Or.inl (same _)
        rw [happ, Option.map_map]
        rfl
    | delivers i q k event result groupInfo presentable front rows chat commands =>
        left
        apply same chat
    | clears groupInfo rows chat registered =>
        rcases chat with hnone | ⟨-, hsame⟩
        · rw [hnone] at hs
          cases hs
        · left
          apply same hsame
    | keeps groupInfo front rows chat registered => exact .inl (same chat)

/-- A listener that a handler registers watches the entry at the number of a chat on
screen. -/
theorem registered_cases (hh : handler program w e = some (d, c, some (app, cs)))
    {l : Listener String Chat} (hl : l ∈ cs.filterMap Command.registered) :
  ∃ s ∈ (w.device d).app.chat, l.tag = s.chat
    ∧ ∃ g ∈ (w.device d).app.groupInfo[s.chat.groupNumber]?, document g.taskId = some l.doc
  := by
  rcases handler_cases hh with ⟨g, message, now, hs⟩ | ⟨screen, g, hs⟩ | ⟨row, g, hs⟩ | hs
  · obtain ⟨s, hchat, hg, -, id, hid, rfl⟩ := hs.chat
    obtain rfl : l = ⟨id, s.chat, true⟩ := List.mem_singleton.mp hl
    exact ⟨s, hchat, rfl, g, hg, hid⟩
  · rw [hs.commands] at hl
    cases hl
  · obtain ⟨id, -, rfl⟩ := hs.commands
    cases hl
  · cases hs.shows with
    | taps row g event entry happ commands =>
        rw [commands] at hl
        cases hl
    | appears s g chat entry happ commands =>
        obtain ⟨id, hid, rfl⟩ := commands
        obtain rfl : l = ⟨id, s.chat, true⟩ := List.mem_singleton.mp hl
        exact ⟨s, chat, rfl, g, entry, hid⟩
    | delivers i q k event result groupInfo presentable front rows chat commands =>
        rw [commands] at hl
        cases hl
    | clears groupInfo rows chat registered | keeps groupInfo front rows chat registered =>
        rw [registered] at hl
        cases hl

end Handler

/-! ### Chats -/

/-- The rows of chats are kept: a tapped row is the one of the group it shows, and while a
chat is on the stack each list that is delivered to its device has the group of the chat at its
number (or aborts the app), and the list is not taken away. -/
structure ChatKept (w : World D) (e : Event D) : Prop where
  tap : ∀ p ∈ tapOf e, ∀ shown ∈ (w.device p.1).app.rows[p.2]?,
    HoldsAt p.2 shown.taskId (w.device p.1).app.groupInfo
  deliver : ∀ p ∈ e.delivery, ∀ r ∈ (w.device p.1).client.results[p.2]?,
    Presentable r.1 (listAfter r.1 r.2 (w.device p.1).app.groupInfo) →
    ∀ s ∈ (w.device p.1).app.chat, StandsAt s.chat.groupNumber s.chat.openedOn
      (listAfter r.1 r.2 (w.device p.1).app.groupInfo)
  stays : ∀ d, Bares w d e → (w.device d).app.chat = none

/-- A message is sent to the entry of the group the chat was opened on, and overwrites the
document of this group and no other. -/
def SendsToOwnGroup (w : World D) (d : D) (s : ChatScreen) : Prop :=
  ∀ message now, ∃ g eff,
    TaskGroupDetailViewController.commitBtn s.chat message now (w.device d).app = some eff
      ∧ (w.device d).app.groupInfo[s.chat.groupNumber]? = some g ∧ g.taskId = s.chat.openedOn
      ∧ eff.1.groupInfo = (w.device d).app.groupInfo.set s.chat.groupNumber (g.send message now)
      ∧ eff.2.filterMap Command.written = [.set s.chat.openedOn (g.send message now).encode]

section Decidable

variable [DecidableEq D] [Fintype D]

instance (w : World D) (e : Event D) : Decidable (ChatKept w e) :=
  decidable_of_iff
    ((∀ p ∈ tapOf e, ∀ shown ∈ (w.device p.1).app.rows[p.2]?,
        HoldsAt p.2 shown.taskId (w.device p.1).app.groupInfo)
      ∧ (∀ p ∈ e.delivery, ∀ r ∈ (w.device p.1).client.results[p.2]?,
        Presentable r.1 (listAfter r.1 r.2 (w.device p.1).app.groupInfo) →
        ∀ s ∈ (w.device p.1).app.chat, StandsAt s.chat.groupNumber s.chat.openedOn
          (listAfter r.1 r.2 (w.device p.1).app.groupInfo))
      ∧ ∀ d, Bares w d e → (w.device d).app.chat = none)
    ⟨fun h => ⟨h.1, h.2.1, h.2.2⟩, fun h => ⟨h.tap, h.deliver, h.stays⟩⟩

end Decidable

/-- Every chat on a stack sends to the group it was opened on, and every listener of a chat
watches the group the chat was opened on. -/
structure Bound (w : World D) : Prop where
  chat : ∀ d, ∀ s ∈ (w.device d).app.chat, SendsToOwnGroup w d s
  listeners : ∀ d, ∀ l ∈ (w.device d).client.listeners, l.doc = l.tag.openedOn

/-- Every chat on a stack has its group at its number. -/
def Anchored (w : World D) : Prop :=
  ∀ d, ∀ s ∈ (w.device d).app.chat,
    StandsAt s.chat.groupNumber s.chat.openedOn (w.device d).app.groupInfo

theorem sendsToOwnGroup_iff {w : World D} {d : D} {s : ChatScreen} (hkeyed : Keyed w) :
  SendsToOwnGroup w d s
    ↔ StandsAt s.chat.groupNumber s.chat.openedOn (w.device d).app.groupInfo
  := by
  constructor
  · intro h
    obtain ⟨g, -, -, hg, hid, -⟩ := h "" 0
    use g, hg
  · rintro ⟨g, hg, hid⟩ message now
    have hsegment := hkeyed.segmented d g (List.mem_of_getElem? hg)
    refine ⟨g, _, TaskGroupDetailViewController.commitBtn_eq_some hg hsegment, hg, hid, rfl, ?_⟩
    rw [← hid]
    rfl

theorem bound_iff {w : World D} (hkeyed : Keyed w) :
  Bound w ↔ Anchored w ∧ ∀ d, ∀ l ∈ (w.device d).client.listeners, l.doc = l.tag.openedOn
  := by
  constructor
  · rintro ⟨hchat, hlisteners⟩
    exact ⟨fun d s hs => (sendsToOwnGroup_iff hkeyed).mp (hchat d s hs), hlisteners⟩
  · rintro ⟨hanchored, hlisteners⟩
    exact ⟨fun d s hs => (sendsToOwnGroup_iff hkeyed).mpr (hanchored d s hs), hlisteners⟩

theorem anchored_initial :
  Anchored (World.initial : World D)
  := by
  intro d s hs
  simp [World.initial, App.stopped] at hs

section Step

variable [DecidableEq D] {w w' : World D} {e : Event D} {d : D}

/-- Steps that keep the rows of chats keep the chats at their groups. -/
theorem anchored_of_chatKept (h : Anchored w) (hC : ChatKept w e) (hs : step w e = some w') :
  Anchored w'
  := by
  intro d s hs'
  rcases app_step hs d with happ | happ | ⟨c, cs, hh, -⟩
  · rw [happ] at hs' ⊢
    apply h d s hs'
  · rw [happ] at hs'
    cases hs'
  · rcases chat_cases hh hs' with ⟨s₀, hs₀, heq⟩ | ⟨row, shown, rfl, hshown, rfl, hid, hgroupInfo⟩
    · rw [← heq]
      apply standsAt_handler hh hs₀ hs' (h d s₀ hs₀)
      · intro i he r hr hpresentable
        apply hC.deliver (d, i) he r hr hpresentable s₀ hs₀
      · intro hbares
        rw [hC.stays d hbares] at hs₀
        cases hs₀
    · -- the tap has read the entry at the row
      obtain ⟨-, -, -, hact⟩ := handler_act.mp hh
      obtain ⟨g, hg, -⟩ := TaskGroupViewController.didSelectRowAt_cases hact.symm
      rw [hid, hgroupInfo]
      use g, hg, hC.tap _ rfl shown hshown g hg

theorem listeners_of_anchored (hkeyed : Keyed w) (h : Anchored w)
    (hlisteners : ∀ d, ∀ l ∈ (w.device d).client.listeners, l.doc = l.tag.openedOn)
    (hs : step w e = some w') {l : Listener String Chat}
    (hl : l ∈ (w'.device d).client.listeners) :
  l.doc = l.tag.openedOn
  := by
  rcases mem_listeners_step hs hl with ⟨l', hl', hdoc, htag⟩
    | ⟨c, app, cs, hh, l', hl', hdoc, htag⟩
  · rw [← hdoc, ← htag]
    apply hlisteners d l' hl'
  · obtain ⟨s, hs, hchat, g, hg, hdocument⟩ := registered_cases hh hl'
    obtain ⟨g', hg', hid⟩ := h d s hs
    obtain rfl : g = g' := Option.some.inj (hg.symm.trans hg')
    have hsegment := hkeyed.segmented d g (List.mem_of_getElem? hg)
    rw [← hdoc, ← htag, hchat, ← hid, hsegment.eq_of_document hdocument]

theorem app_of_act {a : Action} {app : App} {cs : List Command}
    (hact : act a (w.device d).app = some (app, cs)) (hs : step w (.act d a) = some w') :
  (w'.device d).app = app
  := by
  obtain ⟨⟨f, c, r⟩, hh, -⟩ := Option.bind_eq_some_iff.mp hs
  obtain ⟨-, rfl, -, hr⟩ := handler_act.mp hh
  obtain rfl : r = some (app, cs) := hr.trans hact
  apply app_of_handler hh hs

/-- A tap on a row with an entry opens its chat. -/
theorem chat_of_tap {row : ℕ} {shown g : GroupInfo}
    (hs : step w (.act d (.didSelectRowAt row)) = some w')
    (hshown : (w.device d).app.rows[row]? = some shown)
    (hg : (w.device d).app.groupInfo[row]? = some g) :
  ∃ s ∈ (w'.device d).app.chat, s.chat.groupNumber = row ∧ s.chat.openedOn = shown.taskId
    ∧ (w'.device d).app.groupInfo = (w.device d).app.groupInfo
  := by
  have htap : act (.didSelectRowAt row) (w.device d).app = some ({ (w.device d).app with
      chat := some ⟨⟨(w.device d).app.chats, row, shown.taskId⟩, false, 0⟩
      chats := (w.device d).app.chats + 1 }, []) := by
    simp [act, TaskGroupViewController.didSelectRowAt, GroupInfoManager.getGroupInfo, hg, hshown]
  rw [app_of_act htap hs]
  refine ⟨_, rfl, rfl, ?_, ?_⟩
  · rfl
  · rfl

/-- A delivery that does not abort the app puts the list in the place of `groupInfo`. -/
theorem app_of_delivery {i : ℕ} {x : Unit} {q : Query} {k : Collection String Document}
    (hs : step w (.deliver d i x) = some w') (hk : (w.device d).client.results[i]? = some (q, k))
    (hpresentable : Presentable q (listAfter q k (w.device d).app.groupInfo)) :
  (w'.device d).app.groupInfo = listAfter q k (w.device d).app.groupInfo
    ∧ (w'.device d).app.chat.map ChatScreen.chat = (w.device d).app.chat.map ChatScreen.chat
  := by
  have hcallback : ∃ app', callback q k () (w.device d).app = some (app', [])
      ∧ app'.groupInfo = listAfter q k (w.device d).app.groupInfo
      ∧ app'.chat.map ChatScreen.chat = (w.device d).app.chat.map ChatScreen.chat := by
    cases q with
    | home | list => exact ⟨_, rfl, appendDocuments_eq _ _, rfl⟩
    | refresh chat => exact TaskGroupDetailViewController.completed_eq_some _ hpresentable
  obtain ⟨app', happ', hlist, hchat⟩ := hcallback
  have hh : handler program w (.deliver d i x) = some
      (d, { (w.device d).client with results := (w.device d).client.results.eraseIdx i },
        some (app', [])) :=
    handler_deliver.mpr ⟨q, k, hk, rfl, rfl, happ'.symm⟩
  rw [app_of_handler hh hs]
  use hlist, hchat

/-- The list is gone after it was taken away, and the chat stays on the stack. -/
theorem app_of_bares (hs : step w e = some w') (hbares : Bares w d e) :
  (w'.device d).app.groupInfo = []
    ∧ (w'.device d).app.chat.map ChatScreen.chat = (w.device d).app.chat.map ChatScreen.chat
  := by
  unfold Bares at hbares
  split at hbares
  · obtain rfl := hbares
    rw [app_of_act (a := .backCancelled) rfl hs]
    use rfl
    change (Option.map _ _).map _ = _
    simp [Function.comp_def]
  · obtain ⟨rfl, chat, hq⟩ := hbares
    have hh := handler_fail (P := program).mpr ⟨_, hq, rfl, rfl, rfl⟩
    rw [app_of_handler hh hs]
    exact ⟨rfl, rfl⟩
  · cases hbares

/-- Steps that keep the chats at their groups keep the rows of chats. -/
theorem chatKept_of_anchored (h : Anchored w') (hs : step w e = some w') :
  ChatKept w e
  where
  tap := by
    rintro ⟨d, row⟩ he shown hshown g hg
    obtain rfl := tapOf_eq_some.mp he
    obtain ⟨s, hs', rfl, hid, hgroupInfo⟩ := chat_of_tap hs hshown hg
    obtain ⟨g', hg', hid'⟩ := h d s hs'
    rw [hgroupInfo] at hg'
    obtain rfl : g = g' := Option.some.inj (hg.symm.trans hg')
    exact hid'.trans hid
  deliver := by
    rintro ⟨d, i⟩ he ⟨q, k⟩ hk hpresentable s hs'
    obtain ⟨x, rfl⟩ := Event.delivery_eq_some.mp he
    obtain ⟨hgroupInfo, hchat⟩ := app_of_delivery hs hk hpresentable
    rw [Option.mem_def.mp hs', Option.map_some, Option.map_eq_some_iff] at hchat
    obtain ⟨s', hs', heq⟩ := hchat
    rw [← hgroupInfo, ← heq]
    apply h d s' hs'
  stays := by
    intro d hbares
    obtain ⟨hgroupInfo, hchat⟩ := app_of_bares hs hbares
    cases hnone : (w.device d).app.chat with
    | none => rfl
    | some s =>
        rw [hnone, Option.map_some, Option.map_eq_some_iff] at hchat
        obtain ⟨s', hs', -⟩ := hchat
        have hstands := h d s' hs'
        rw [hgroupInfo] at hstands
        cases not_standsAt_nil hstands

/-- The steps that keep the chats bound are those that keep their rows. -/
theorem bound_step (hkeyed : Keyed w) (h : Bound w) (hs : step w e = some w') :
  Bound w' ↔ ChatKept w e
  := by
  rw [bound_iff hkeyed] at h
  rw [bound_iff (keyed_step hkeyed hs)]
  constructor
  · intro h'
    apply chatKept_of_anchored h'.1 hs
  · intro hC
    use anchored_of_chatKept h.1 hC hs
    intro d l hl
    apply listeners_of_anchored hkeyed h.1 h.2 hs hl

/-- In a run from the start every chat on a stack sends to the group it was opened on, and every
listener watches the group its chat was opened on, in every state of the run, exactly when every
step keeps the rows of chats. -/
theorem chat_bound {es : List (Event D)} (h : run World.initial es = some w) :
  Run.Throughout step Bound World.initial es ↔ Run.Along step ChatKept World.initial es
  := by
  apply Run.throughout_iff_along (J := Keyed) _ _ keyed_initial _ h
  · intro w e w' hw hs
    apply keyed_step hw hs
  · intro w e w' hkeyed hw hs
    apply bound_step hkeyed hw hs
  · apply (bound_iff keyed_initial).mpr
    use anchored_initial
    intro d l hl
    simp [World.initial] at hl

end Step

/-- A device creates a group and opens its chat, and another device creates a group that
sorts above it. -/
def sortedAbove : List (Event Bool) :=
  started true ++ makesGroup true "g" "t" 1 ++ [.arrive true] ++ opensList true
    ++ opensChat true 0 ++ started false ++ makesGroup false "h" "z" 2 ++ [.arrive false]

/-- The chat is refreshed before the other group is created. -/
theorem chat_bound_refreshed :
  Run.Throughout step Bound (World.initial : World Bool) (started true ++ makesGroup true "g" "t" 1
    ++ [.arrive true] ++ opensList true ++ opensChat true 0 ++ [.snapshot true 0, .answer true 0,
      .deliver true 0 ()])
  := by
  have hrun : (run (World.initial : World Bool) (started true ++ makesGroup true "g" "t" 1
      ++ [.arrive true] ++ opensList true ++ opensChat true 0 ++ [.snapshot true 0,
        .answer true 0, .deliver true 0 ()])).isSome := by
    decide +kernel
  obtain ⟨w, hw⟩ := Option.isSome_iff_exists.mp hrun
  apply (chat_bound hw).mpr
  decide +kernel

/-- After the refresh the other group is at the number of the chat. -/
theorem not_chat_bound :
  ¬ ∀ (d : Bool) (es : List (Event Bool)) (w : World Bool), run World.initial es = some w →
    (∀ e ∈ es, e.Orderly) → ∀ s ∈ (w.device d).app.chat,
      Run.Along step (Spares s.chat.openedOn) World.initial es → SendsToOwnGroup w d s
  := by
  intro h
  have hrun : ∃ w ∈ run World.initial (sortedAbove ++ [.snapshot true 0, .answer true 0,
      .deliver true 0 ()]), ∃ s ∈ (w.device true).app.chat, s.chat.openedOn = "t"
      ∧ ∃ g ∈ (w.device true).app.groupInfo[s.chat.groupNumber]?, g.taskId = "z" := by
    decide +kernel
  obtain ⟨w, hw, s, hs, hopened, g, hg, hid⟩ := hrun
  have hspares : Run.Along step (Spares s.chat.openedOn) World.initial
      (sortedAbove ++ [.snapshot true 0, .answer true 0, .deliver true 0 ()]) := by
    rw [hopened]
    decide +kernel
  obtain ⟨g', _, -, hg', hid', -⟩ := h true _ w hw (by decide) s hs hspares "a" 3
  obtain rfl : g = g' := Option.some.inj (hg.symm.trans hg')
  simp [hid, hopened] at hid'

/-! ### Swipes -/

section Swipe

/-- The rows of the list are kept: while the list is in front, a refresh or Home's load that
is delivered has at each row the group the row shows (or aborts the app). -/
def RowsKept (w : World D) (e : Event D) : Prop :=
  ∀ p ∈ e.delivery, ListInFront (w.device p.1).app →
    ∀ r ∈ (w.device p.1).client.results[p.2]?, r.1 ≠ .list →
    Presentable r.1 (listAfter r.1 r.2 (w.device p.1).app.groupInfo) →
    ∀ k < (w.device p.1).app.rows.length, ∀ shown ∈ (w.device p.1).app.rows[k]?,
      HoldsAt k shown.taskId (listAfter r.1 r.2 (w.device p.1).app.groupInfo)

instance (w : World D) (e : Event D) : Decidable (RowsKept w e) :=
  inferInstanceAs (Decidable (∀ p ∈ e.delivery, ListInFront (w.device p.1).app →
    ∀ r ∈ (w.device p.1).client.results[p.2]?, r.1 ≠ .list →
    Presentable r.1 (listAfter r.1 r.2 (w.device p.1).app.groupInfo) →
    ∀ k < (w.device p.1).app.rows.length, ∀ shown ∈ (w.device p.1).app.rows[k]?,
      HoldsAt k shown.taskId (listAfter r.1 r.2 (w.device p.1).app.groupInfo)))

/-- Each row of the table shows the entry of `groupInfo` at its number, if there is one. -/
def Drawn (app : App) : Prop :=
  ∀ k, ∀ shown ∈ app.rows[k]?, HoldsAt k shown.taskId app.groupInfo

/-- The delivery of the list's load draws the table. -/
theorem rows_of_list {w : World D} {e : Event D} {d : D} {c : Client String Document Query Chat}
    {app : App} {cs : List Command} (hh : handler program w e = some (d, c, some (app, cs)))
    {i : ℕ} (he : e.delivery = some (d, i)) {r : Query × Collection String Document}
    (hr : r ∈ (w.device d).client.results[i]?) (hlist : r.1 = .list) :
  app.rows = app.groupInfo
  := by
  obtain ⟨x, rfl⟩ := Event.delivery_eq_some.mp he
  obtain ⟨q, k, hk, -, -, h⟩ := handler_deliver.mp hh
  obtain rfl : r = (q, k) := Option.some.inj (hr.symm.trans hk)
  obtain rfl : q = .list := hlist
  obtain ⟨rfl, rfl⟩ := Prod.mk.inj (Option.some.inj h)
  rfl

/-- A handler keeps the rows of the table, or empties the table, or draws it. -/
theorem rows_cases {w : World D} {e : Event D} {d : D} {c : Client String Document Query Chat}
    {app : App} {cs : List Command} (hh : handler program w e = some (d, c, some (app, cs))) :
  app.rows = (w.device d).app.rows ∨ app.rows = [] ∨ app.rows = app.groupInfo
  := by
  rcases handler_cases hh with ⟨g, message, now, hs⟩ | ⟨screen, g, hs⟩ | ⟨row, g, hs⟩ | hs
  · obtain ⟨s, -, -, rfl, -⟩ := hs.chat
    left
    rfl
  · left
    rw [hs.app]
  · left
    rw [hs.app]
  · cases hs.shows with
    | taps row g event entry happ commands => exact .inl (by rw [happ])
    | appears s g chat entry happ commands => exact .inl (by rw [happ])
    | delivers i q k event result groupInfo presentable front rows chat commands =>
        split_ifs at rows
        · right
          right
          apply rows
        · left
          apply rows
    | clears groupInfo rows chat registered => apply rows.imp_right .inl
    | keeps groupInfo front rows chat registered => exact .inl rows

/-- The list comes to the front empty, and a group is created only while it is not in
front. -/
theorem front_cases {w : World D} {e : Event D} {d : D} {c : Client String Document Query Chat}
    {app : App} {cs : List Command} (hh : handler program w e = some (d, c, some (app, cs)))
    (hfront : ListInFront app) :
  app.groupInfo = []
    ∨ ListInFront (w.device d).app ∧ ∀ groupName, creationOf e ≠ some (d, groupName)
  := by
  have hcreate : ListInFront (w.device d).app →
      ∀ groupName, creationOf e ≠ some (d, groupName) := by
    intro hfront groupName he
    unfold creationOf at he
    split at he
    · cases he
      obtain ⟨henabled, -, -, -⟩ := handler_act.mp hh
      simp [program, enabled, hfront.1] at henabled
    · cases he
  rcases handler_cases hh with ⟨g, message, now, hs⟩ | ⟨screen, g, hs⟩ | ⟨row, g, hs⟩ | hs
  · obtain ⟨s, hchat, -, rfl, -⟩ := hs.chat
    have hnone : (w.device d).app.chat = none := hfront.2
    simp [hchat] at hnone
  · rw [hs.app] at hfront
    right
    use hfront, hcreate hfront
  · left
    rw [hs.app]
  · cases hs.shows with
    | taps row g event entry happ commands =>
        rw [happ] at hfront
        cases hfront.2
    | appears s g chat entry happ commands =>
        rw [happ] at hfront
        simp [ListInFront, chat] at hfront
    | delivers i q k event result groupInfo presentable front rows chat commands =>
        right
        use front hfront, hcreate (front hfront)
    | clears groupInfo rows chat registered => exact .inl groupInfo
    | keeps groupInfo front rows chat registered =>
        right
        use front hfront, hcreate (front hfront)

variable [DecidableEq D] {w w' : World D} {e : Event D}

theorem drawn_step (h : ∀ d, ListInFront (w.device d).app → Drawn (w.device d).app)
    (hC : RowsKept w e) (hs : step w e = some w') (d : D)
    (hfront : ListInFront (w'.device d).app) :
  Drawn (w'.device d).app
  := by
  rcases app_step hs d with happ | happ | ⟨c, cs, hh, -⟩
  · rw [happ] at hfront ⊢
    apply h d hfront
  · rw [happ]
    rintro k shown ⟨⟩
  · have drawn : (w'.device d).app.rows = (w'.device d).app.groupInfo →
        Drawn (w'.device d).app := by
      intro hrows k shown hshown g hg
      rw [hrows] at hshown
      obtain rfl : shown = g := Option.some.inj (hshown.symm.trans hg)
      rfl
    rcases front_cases hh hfront with hnil | ⟨hfront', hcreate⟩
    · intro k shown hshown
      rw [hnil]
      apply holdsAt_nil
    rcases rows_cases hh with hrows | hrows | hrows
    · intro k shown hshown
      by_cases hlist : ∃ i, e.delivery = some (d, i) ∧
          ∃ r ∈ (w.device d).client.results[i]?, r.1 = .list
      · obtain ⟨i, he, r, hr, hlist⟩ := hlist
        apply drawn (rows_of_list hh he hr hlist) k shown hshown
      rw [hrows] at hshown
      obtain ⟨hlt, -⟩ := List.getElem?_eq_some_iff.mp hshown
      apply holdsAt_handler hh (h d hfront' k shown hshown)
      · intro i he r hr hpresentable
        apply hC (d, i) he hfront' r hr (fun hr' => hlist ⟨i, he, r, hr, hr'⟩) hpresentable k hlt
          shown hshown
      · intro groupName he
        exact absurd he (hcreate groupName)
    · intro k shown hshown
      rw [hrows] at hshown
      cases hshown
    · apply drawn hrows

/-- A swipe on the row `row` deletes the document of the group the row shows and no other, and
the only entry it removes, before it restores the list, is one of this group. -/
def DeletesShown (w : World D) (d : D) (row : ℕ) : Prop :=
  ∃ shown ∈ (w.device d).app.rows[row]?, ∃ before g after removed eff,
    (w.device d).app.groupInfo = before ++ g :: after ∧ before.length = row
      ∧ g.taskId = shown.taskId
      ∧ TaskGroupViewController.commitEditing.removed row (w.device d).app = some removed
      ∧ removed.1.groupInfo = before ++ after
      ∧ TaskGroupViewController.commitEditing row (w.device d).app = some eff
      ∧ eff.2.filterMap Command.written = [.delete shown.taskId]

/-- In a run that keeps the rows of the list, a swipe deletes the group its row shows exactly when
`groupInfo` has an entry at the row. -/
theorem swipe_deletes_shown {es : List (Event D)} {d : D} {row : ℕ}
    (h : run World.initial es = some w) (hC : Run.Along step RowsKept World.initial es)
    (hswipe : enabled (.commitEditing row) (w.device d).app = true) :
  DeletesShown w d row ↔ row < (w.device d).app.groupInfo.length
  := by
  constructor
  · rintro ⟨_, -, before, g, after, _, _, hsplit, rfl, -⟩
    simp [hsplit]
  · intro hlt
    have hdrawn : ∀ d, ListInFront (w.device d).app → Drawn (w.device d).app := by
      apply Run.exec_invariant
        (I := fun w : World D => ∀ d, ListInFront (w.device d).app → Drawn (w.device d).app) _ _ hC
        h
      · intro w e w' hw hC hs
        apply drawn_step hw hC hs
      · rintro d - k shown ⟨⟩
    simp only [enabled, Bool.and_eq_true, beq_iff_eq, Option.isNone_iff_eq_none,
      decide_eq_true_eq] at hswipe
    obtain ⟨⟨⟨-, htab⟩, hchat⟩, hrow⟩ := hswipe
    have hshown := List.getElem?_eq_getElem hrow
    have hentry := List.getElem?_eq_getElem hlt
    have hid := hdrawn d ⟨htab, hchat⟩ row _ hshown _ hentry
    have hsegment := (keyed_of_run h).segmented d _ (List.mem_of_getElem? hentry)
    have hremoved := TaskGroupViewController.commitEditing_removed_eq hentry
    rw [document_of_isSegment hsegment, Option.map_some] at hremoved
    refine ⟨_, hshown, (w.device d).app.groupInfo.take row, _,
      (w.device d).app.groupInfo.drop (row + 1), _, _, ?_, ?_, hid, hremoved, ?_,
      TaskGroupViewController.commitEditing_eq_some hentry hsegment, ?_⟩
    · rw [← List.drop_eq_getElem_cons hlt, List.take_append_drop]
    · rw [List.length_take, Nat.min_eq_left hlt.le]
    · apply List.eraseIdx_eq_take_drop_succ
    · rw [← hid]
      rfl

end Swipe

/-- The list is shown again after its chat was left, and nothing else happens. -/
theorem swipe_deletes_shown_reloaded :
  ∃ w ∈ run World.initial (started true ++ makesGroup true "g" "t" 1 ++ [.arrive true]
      ++ opensList true ++ opensChat true 0
      ++ [.act true .back, .answer true 0, .deliver true 0 ()]),
    DeletesShown w true 0
  := by
  have hrun : ∃ w ∈ run World.initial (started true ++ makesGroup true "g" "t" 1 ++ [.arrive true]
      ++ opensList true ++ opensChat true 0
      ++ [.act true .back, .answer true 0, .deliver true 0 ()]),
      enabled (.commitEditing 0) (w.device true).app = true
      ∧ 0 < (w.device true).app.groupInfo.length := by
    decide +kernel
  obtain ⟨w, hw, hswipe, hentry⟩ := hrun
  use w, hw
  apply (swipe_deletes_shown hw _ hswipe).mpr hentry
  decide +kernel

/-- The refresh of a chat that was left replaces the list under its table. -/
theorem not_swipe_deletes_shown :
  ¬ ∀ (d : Bool) (row : ℕ) (es : List (Event Bool)) (w : World Bool),
    run World.initial es = some w → (∀ e ∈ es, e.Orderly) →
    enabled (.commitEditing row) (w.device d).app = true → DeletesShown w d row
  := by
  intro h
  have hrun : ∃ w ∈ run World.initial (started true ++ makesGroup true "g" "t" 1 ++ [.arrive true]
      ++ opensList true ++ opensChat true 0 ++ [.act true .back, .answer true 0, .deliver true 0 ()]
      ++ started false ++ makesGroup false "h" "z" 2
      ++ [.arrive false, .snapshot true 0, .answer true 0, .deliver true 0 ()]),
      enabled (.commitEditing 0) (w.device true).app = true
      ∧ (w.device true).app.rows.map GroupInfo.taskId = ["t"]
      ∧ (w.device true).app.groupInfo.map GroupInfo.taskId = ["z", "t"] := by
    decide +kernel
  obtain ⟨w, hw, henabled, hrows, hgroupInfo⟩ := hrun
  obtain ⟨shown, hshown, before, g, after, _, _, hsplit, hnil, hid, -⟩ :=
    h true 0 _ w hw (by decide) henabled
  obtain rfl := List.length_eq_zero_iff.mp hnil
  rw [hsplit, List.nil_append, List.map_cons, List.cons.injEq] at hgroupInfo
  have hshown' : (["t"] : List String)[0]? = some shown.taskId := by
    rw [← hrows, List.getElem?_map, Option.mem_def.mp hshown, Option.map_some]
  have heq : "z" = "t" := hgroupInfo.1.symm.trans (hid.trans (Option.some.inj hshown').symm)
  simp at heq

end Groups

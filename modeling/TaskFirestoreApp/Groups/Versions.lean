import TaskFirestoreApp.Groups.Histories
import TaskFirestoreApp.Groups.MakeScreen

/-!
# Every version of every group

A version of a group comes from the make-group screen, by messages that are sent. What holds
of the groups that are created, and is kept when a message is sent, therefore holds of every
version, wherever it is: `versions_of_run`. It is used for what a version looks like, and for
where its messages come from: each one stands right after the messages its sender had on the
screen.
-/

namespace Groups

open Backend TaskMakeTableViewController

variable {D : Type}

/-! ### A rule for all versions -/

/-- A document is the encoding of a group with its id for taskId and with the property `R`
after the log `l`. -/
def VersionDocument {ι : Type} (R : List ι → GroupInfo → Prop) (l : List ι) (id : String)
    (doc : Document) : Prop :=
  ∃ g : GroupInfo, doc = g.encode ∧ g.taskId = id ∧ R l g

/-- The entries of `groupInfo` have the property `R` after the log `l`, and the make-group
screen has the property `M`. -/
structure VersionApp {ι : Type} (R : List ι → GroupInfo → Prop) (M : MakeScreen → Prop)
    (l : List ι) (app : App) : Prop where
  groupInfo : ∀ g ∈ app.groupInfo, R l g
  make : ∀ screen ∈ app.make, M screen

/-- The property `R` of groups is that of the groups that are created from screens with the
property `M`, and is kept when a message is sent. It may grow with the log `f` writes. -/
structure Inherited {ι : Type} (f : World D → Event D → List ι) (R : List ι → GroupInfo → Prop)
    (M : MakeScreen → Prop) : Prop where
  mono : ∀ {l l' g}, R l g → R (l ++ l') g
  send : ∀ {w d e app cs g message now l}, Sends w d e app cs g message now → R l g →
    R (l ++ f w e) (g.send message now)
  create : ∀ {w d e app cs screen g l}, Creates w d e app cs screen g → M screen →
    R (l ++ f w e) g
  fresh : ∀ now, M (fresh groupMemberCandidate now)
  tap : ∀ {row screen screen'}, M screen → checkBoxIconViewTapped row screen = some screen' →
    M screen'

section Rule

variable {ι : Type} {f : World D → Event D → List ι} {R : List ι → GroupInfo → Prop}
  {M : MakeScreen → Prop} {l : List ι} {w w' : World D} {e : Event D} {d : D}

theorem version_of_mem_loaded {c : Collection String Document} (hc : c.All (VersionDocument R l))
    {g : GroupInfo} (hg : g ∈ loaded c) :
  R l g
  := by
  obtain ⟨i, doc, hi, hdec⟩ := mem_loaded.mp hg
  obtain ⟨g', rfl, -, hr⟩ := hc i doc hi
  obtain rfl : g' = g := Except.ok.inj hdec
  apply hr

/-- The make-group screen a handler leaves is a new one, or the one there was, after a tap at
most. -/
theorem make_of_inherited (h : Inherited f R M) {c : Client String Document Query Chat}
    {app : App} {cs : List Command} (hh : handler program w e = some (d, c, some (app, cs)))
    (hold : ∀ screen ∈ (w.device d).app.make, M screen) :
  ∀ screen ∈ app.make, M screen
  := by
  intro screen hscreen
  rcases make_handler hh hscreen with ⟨now, rfl⟩ | ⟨row, screen', rfl, hscreen', htap⟩ | ⟨hsame, -⟩
  · obtain ⟨-, -, -, hact⟩ := handler_act.mp hh
    obtain ⟨rfl, -⟩ := Prod.mk.inj (Option.some.inj hact)
    obtain rfl := Option.some.inj hscreen
    apply h.fresh
  · apply h.tap (hold screen' hscreen') htap
  · apply hold screen hsame

theorem respects_versions (h : Inherited f R M) (hkeyed : Keyed w)
    (hw : Everywhere (VersionDocument R l) (VersionApp R M l) w)
    {c : Client String Document Query Chat} {eff : Effect}
    (hh : handler program w e = some (d, c, some eff)) :
  eff.Respects (VersionDocument R (l ++ f w e)) (VersionApp R M (l ++ f w e))
  := by
  obtain ⟨app, cs⟩ := eff
  have hold := hw.app d
  have hsend : ∀ g message now, Sends w d e app cs g message now →
      R (l ++ f w e) (g.send message now) :=
    fun g message now hs => h.send hs (hold.groupInfo g hs.mem)
  have hcreate : ∀ screen g, Creates w d e app cs screen g → R (l ++ f w e) g :=
    fun screen g hs => h.create hs (hold.make screen hs.make)
  constructor
  · constructor
    · apply groupInfo_of_handler hh _ _ hsend hcreate
      · intro g hg
        apply h.mono (hold.groupInfo g hg)
      · intro r hr g hg
        apply h.mono (version_of_mem_loaded (hw.results d r hr) hg)
    · apply make_of_inherited h hh hold.make
  · apply written_of_handler hh (hkeyed.segmented d)
    · intro g message now hs
      exact ⟨_, rfl, rfl, hsend g message now hs⟩
    · intro screen g hs
      exact ⟨_, rfl, rfl, hcreate screen g hs⟩

variable [DecidableEq D]

theorem versions_step (h : Inherited f R M) (hkeyed : Keyed w)
    (hw : Everywhere (VersionDocument R l) (VersionApp R M l) w) (hs : step w e = some w') :
  Everywhere (VersionDocument R (l ++ f w e)) (VersionApp R M (l ++ f w e)) w'
  := by
  apply hw.step _ _ _ _ hs
  · rintro id doc ⟨g, hdoc, hid, hr⟩
    use g, hdoc, hid, h.mono hr
  · intro app happ
    use fun g hg => h.mono (happ.groupInfo g hg), happ.make
  · intro app
    constructor
    · intro g hg
      cases hg
    · intro screen hscreen
      cases hscreen
  · intro d c eff hh _
    apply respects_versions h hkeyed hw hh

/-- What holds of the groups that are created, and is kept when a message is sent, holds of
every version of every group. -/
theorem versions_of_run (h : Inherited f R M) {es : List (Event D)}
    (hs : run World.initial es = some w) :
  Everywhere (VersionDocument R (Run.log step f World.initial es))
    (VersionApp R M (Run.log step f World.initial es)) w
  := by
  have hinitial : Everywhere (VersionDocument R []) (VersionApp R M []) (World.initial : World D) := by
    apply Everywhere.of_empty rfl (fun _ => rfl)
    intro d
    constructor
    · intro g hg
      simp [World.initial, App.stopped] at hg
    · intro screen hscreen
      simp [World.initial, App.stopped] at hscreen
  have key : Keyed w ∧ Everywhere (VersionDocument R (Run.log step f World.initial es))
      (VersionApp R M (Run.log step f World.initial es)) w := by
    apply Run.log_of_step
      (P := fun l w => Keyed w ∧ Everywhere (VersionDocument R l) (VersionApp R M l) w)
      _ ⟨keyed_initial, hinitial⟩ hs
    intro l w e w' hw he
    exact ⟨keyed_step hw.1 he, versions_step h hw.1 hw.2 he⟩
  apply key.2

end Rule

/-! ### What a version looks like -/

/-- A group with a name, with members, none of them twice, from the candidates of the make-group
screen, and with no messages or some after five empty ones. -/
structure WellFormed (g : GroupInfo) : Prop where
  taskId : g.taskId ≠ ""
  groupName : g.groupName ≠ ""
  members : g.groupMemberNames ≠ []
  nodup : g.groupMemberNames.Nodup
  candidates : g.groupMemberNames ⊆ groupMemberCandidate
  talks : g.groupMemberTalks = []
    ∨ ∃ messages, messages ≠ [] ∧ g.groupMemberTalks = List.replicate 5 "" ++ messages

/-- A make-group screen with the candidates of the source, some of them selected. -/
structure ScreenFormed (screen : MakeScreen) : Prop where
  candidates : screen.groupMemberCandidate = groupMemberCandidate
  nodup : screen.groupCandidate.groupMemberNames.Nodup
  subset : screen.groupCandidate.groupMemberNames ⊆ groupMemberCandidate
  talks : screen.groupCandidate.groupMemberTalks = []

theorem screenFormed_tap {row : ℕ} {screen screen' : MakeScreen} (h : ScreenFormed screen)
    (htap : checkBoxIconViewTapped row screen = some screen') :
  ScreenFormed screen'
  := by
  cases hname : screen.groupMemberCandidate[row]? with
  | none => simp [checkBoxIconViewTapped, hname] at htap
  | some name =>
      rw [checkBoxIconViewTapped_eq_some hname] at htap
      obtain rfl := Option.some.inj htap
      refine ⟨h.candidates, Toggle.nodup_toggle h.nodup, ?_, h.talks⟩
      intro a ha
      rcases eq_or_ne a name with rfl | hne
      · rw [← h.candidates]
        apply List.mem_of_getElem? hname
      · apply h.subset ((Toggle.mem_toggle_of_ne hne).mp ha)

theorem WellFormed.send {g : GroupInfo} (h : WellFormed g) (message : String) (now : Timestamp) :
  WellFormed (g.send message now)
  where
  taskId := h.taskId
  groupName := h.groupName
  members := h.members
  nodup := h.nodup
  candidates := h.candidates
  talks := by
    right
    rcases h.talks with htalks | ⟨messages, -, htalks⟩
    · exact ⟨[message], by simp, by simp [GroupInfo.send, GroupInfo.extendTalks, htalks]⟩
    · exact ⟨messages ++ [message], by simp,
        by simp [GroupInfo.send, GroupInfo.extendTalks, htalks]⟩

theorem inherited_wellFormed :
  Inherited (fun (_ : World D) _ => ([] : List Empty)) (fun _ g => WellFormed g) ScreenFormed
  where
  mono h := h
  send _ h := h.send _ _
  create {w d e app cs screen g l} h hscreen := by
    obtain ⟨groupName, createdAt, updatedAt, -, hname, hg⟩ := h.event
    rw [hg]
    refine ⟨h.taskId.1, ?_, h.members, hscreen.nodup, hscreen.subset, .inl hscreen.talks⟩
    rintro rfl
    cases hname
  fresh now := ⟨rfl, List.nodup_nil, List.nil_subset _, rfl⟩
  tap h htap := screenFormed_tap h htap

/-- In every run from the start every version of a document of Groups is exactly the encoding of
a well-formed group with the id of the document for taskId: on the server, in a write that has
not arrived, and in an answer that has not been delivered; and so is every entry of the
`groupInfo` of a device. -/
theorem documents_wellFormed [DecidableEq D] {es : List (Event D)} {w : World D}
    (h : run World.initial es = some w) :
  Everywhere (fun id doc => ∃ g : GroupInfo, doc = g.encode ∧ g.taskId = id ∧ WellFormed g)
    (fun app => ∀ g ∈ app.groupInfo, WellFormed g) w
  := by
  apply (versions_of_run inherited_wellFormed h).mono
  · intro id doc hdoc
    apply hdoc
  · intro app happ
    apply happ.groupInfo

/-- A group is created and a message is sent to it. -/
theorem documents_wellFormed_sent :
  ∃ w : World Unit, run World.initial (started () ++ makesGroup () "g" "t" 1 ++ opensList ()
      ++ opensChat () 0 ++ [.act () (.commitBtn "a" 2)]) = some w
    ∧ Everywhere (fun id doc => ∃ g : GroupInfo, doc = g.encode ∧ g.taskId = id ∧ WellFormed g)
      (fun app => ∀ g ∈ app.groupInfo, WellFormed g) w
  := by
  have hrun : (run (World.initial : World Unit) (started () ++ makesGroup () "g" "t" 1
      ++ opensList () ++ opensChat () 0 ++ [.act () (.commitBtn "a" 2)])).isSome := by
    decide +kernel
  obtain ⟨w, hw⟩ := Option.isSome_iff_exists.mp hrun
  use w, hw
  apply documents_wellFormed hw

/-! ### Where the messages come from -/

/-- A press of the send button: the group it addressed, the message, the messages its sender
had of the group, and the time. -/
structure Sending where
  taskId : String
  message : String
  seen : List String
  time : Timestamp
  deriving DecidableEq

/-- The press of the send button an event is. -/
def sending (w : World D) : Event D → List Sending
  | .act d (.commitBtn message now) =>
      match addressed w d with
      | some g => [⟨g.taskId, message, g.groupMemberTalks, now⟩]
      | none => []
  | _ => []

/-- What the sender had of the group after the press. -/
def Sending.shown (s : Sending) : List String :=
  GroupInfo.extendTalks s.seen s.message

/-- Each message of the group was sent by a press for it, right after the messages that
precede it, and the group was last updated by the press of its last message. -/
structure Told (l : List Sending) (g : GroupInfo) : Prop where
  message : ∀ j m, 5 ≤ j → g.groupMemberTalks[j]? = some m →
    ∃ s ∈ l, s.taskId = g.taskId ∧ s.message = m ∧ s.shown = g.groupMemberTalks.take (j + 1)
  last : g.groupMemberTalks = []
    ∨ ∃ s ∈ l, s.taskId = g.taskId ∧ s.shown = g.groupMemberTalks ∧ s.time = g.updatedAt

theorem Told.append {l : List Sending} {g : GroupInfo} (h : Told l g) (l' : List Sending) :
  Told (l ++ l') g
  where
  message j m hj hm := by
    obtain ⟨s, hs, hrest⟩ := h.message j m hj hm
    use s, List.mem_append_left _ hs
  last := by
    rcases h.last with hnil | ⟨s, hs, hrest⟩
    · left
      apply hnil
    · right
      use s, List.mem_append_left _ hs

/-- A position from the fifth on of the messages after one is sent is that of the new message,
or one of the messages there were. -/
theorem getElem?_extendTalks {talks : List String} {message m : String} {j : ℕ} (hj : 5 ≤ j)
    (hm : (GroupInfo.extendTalks talks message)[j]? = some m) :
  m = message ∧ (GroupInfo.extendTalks talks message).length = j + 1
    ∨ talks[j]? = some m
      ∧ (GroupInfo.extendTalks talks message).take (j + 1) = talks.take (j + 1)
  := by
  by_cases hnil : talks = []
  · subst hnil
    have hlt := (List.getElem?_eq_some_iff.mp hm).1
    simp only [GroupInfo.extendTalks, if_true, List.length_append, List.length_replicate,
      List.length_singleton] at hlt
    obtain rfl : j = 5 := by omega
    exact .inl ⟨(Option.some.inj hm).symm, rfl⟩
  · simp only [GroupInfo.extendTalks, hnil, if_false] at hm ⊢
    rcases lt_trichotomy j talks.length with hlt | rfl | hgt
    · rw [List.getElem?_append_left hlt] at hm
      exact .inr ⟨hm, List.take_append_of_le_length hlt⟩
    · rw [List.getElem?_concat_length] at hm
      exact .inl ⟨(Option.some.inj hm).symm, by simp⟩
    · have hlength : (talks ++ [message]).length ≤ j := by
        rw [List.length_append, List.length_singleton]
        omega
      rw [List.getElem?_eq_none hlength] at hm
      cases hm

/-- A message that is sent is the last one, after those its sender had. -/
theorem Told.send {l : List Sending} {g : GroupInfo} (h : Told l g) (message : String)
    (now : Timestamp) :
  Told (l ++ [⟨g.taskId, message, g.groupMemberTalks, now⟩]) (g.send message now)
  := by
  have hnew : (⟨g.taskId, message, g.groupMemberTalks, now⟩ : Sending)
      ∈ l ++ [⟨g.taskId, message, g.groupMemberTalks, now⟩] := by
    simp
  constructor
  · intro j m hj hm
    rcases getElem?_extendTalks hj hm with ⟨rfl, hlength⟩ | ⟨hm, htake⟩
    · refine ⟨_, hnew, rfl, rfl, ?_⟩
      symm
      apply List.take_of_length_le hlength.le
    · obtain ⟨s, hs, hid, hmessage, hshown⟩ := h.message j m hj hm
      exact ⟨s, List.mem_append_left _ hs, hid, hmessage, hshown.trans htake.symm⟩
  · exact .inr ⟨_, hnew, rfl, rfl, rfl⟩

theorem told_of_nil {l : List Sending} {g : GroupInfo} (h : g.groupMemberTalks = []) :
  Told l g
  where
  message j m _ hm := by simp [h] at hm
  last := .inl h

theorem sending_of_sends {w : World D} {d : D} {e : Event D} {app : App} {cs : List Command}
    {g : GroupInfo} {message : String} {now : Timestamp} (h : Sends w d e app cs g message now) :
  sending w e = [⟨g.taskId, message, g.groupMemberTalks, now⟩]
  := by
  rw [h.event, sending, addressed_of_sends h]

theorem inherited_told :
  Inherited (sending (D := D)) Told fun screen => screen.groupCandidate.groupMemberTalks = []
  where
  mono h := h.append _
  send {w d e app cs g message now l} hs h := by
    rw [sending_of_sends hs]
    apply h.send
  create h hscreen := told_of_nil (h.groupMemberTalks.trans hscreen)
  fresh _ := rfl
  tap hscreen htap := by
    obtain ⟨names, rfl⟩ := checkBoxIconViewTapped_cases htap
    apply hscreen

/-- In every run from the start, in every version of a group, wherever it is, every message
after the five empty ones was sent by a press of the send button for this group whose sender
then had exactly the messages up to and including it; and the group was last updated at the time
of the press of its last message. Writes that overwrite each other never move a message into
another context. -/
theorem messages_follow_seen [DecidableEq D] {es : List (Event D)} {w : World D}
    (h : run World.initial es = some w) :
  Everywhere (fun id doc => ∃ g : GroupInfo, doc = g.encode ∧ g.taskId = id
      ∧ Told (Run.log step sending World.initial es) g)
    (fun app => ∀ g ∈ app.groupInfo, Told (Run.log step sending World.initial es) g) w
  := by
  apply (versions_of_run inherited_told h).mono
  · intro id doc hdoc
    apply hdoc
  · intro app happ
    apply happ.groupInfo

/-- Two devices send to a group at once. -/
theorem messages_follow_seen_concurrent :
  ∃ w : World Bool, run World.initial (started true ++ makesGroup true "g" "t" 1
      ++ [.arrive true] ++ opensList true ++ opensChat true 0 ++ started false ++ opensList false
      ++ opensChat false 0 ++ [.act true (.commitBtn "a" 2), .act true (.commitBtn "b" 3),
        .act false (.commitBtn "c" 4), .arrive true, .arrive true, .arrive false]) = some w
    ∧ Everywhere (fun id doc => ∃ g : GroupInfo, doc = g.encode ∧ g.taskId = id
        ∧ Told [⟨"t", "a", [], 2⟩, ⟨"t", "b", ["", "", "", "", "", "a"], 3⟩, ⟨"t", "c", [], 4⟩] g)
      (fun app => ∀ g ∈ app.groupInfo,
        Told [⟨"t", "a", [], 2⟩, ⟨"t", "b", ["", "", "", "", "", "a"], 3⟩, ⟨"t", "c", [], 4⟩] g) w
  := by
  have hrun : (run (World.initial : World Bool) (started true ++ makesGroup true "g" "t" 1
      ++ [.arrive true] ++ opensList true ++ opensChat true 0 ++ started false ++ opensList false
      ++ opensChat false 0 ++ [.act true (.commitBtn "a" 2), .act true (.commitBtn "b" 3),
        .act false (.commitBtn "c" 4), .arrive true, .arrive true, .arrive false])).isSome
      ∧ Run.log step sending (World.initial : World Bool) (started true
        ++ makesGroup true "g" "t" 1 ++ [.arrive true] ++ opensList true ++ opensChat true 0
        ++ started false ++ opensList false ++ opensChat false 0
        ++ [.act true (.commitBtn "a" 2), .act true (.commitBtn "b" 3),
        .act false (.commitBtn "c" 4), .arrive true, .arrive true, .arrive false])
      = [⟨"t", "a", [], 2⟩, ⟨"t", "b", ["", "", "", "", "", "a"], 3⟩, ⟨"t", "c", [], 4⟩] := by
    decide +kernel
  obtain ⟨w, hw⟩ := Option.isSome_iff_exists.mp hrun.1
  use w, hw
  rw [← hrun.2]
  apply messages_follow_seen hw

end Groups

import TaskFirestoreApp.Groups.Keys

/-!
# The history of a group

Every press of the send button is recorded with the group it addressed. The messages of
every version of a group, wherever it is, are none, or five empty ones and the messages of
some presses for that group, in the order in which they were made.
-/

namespace Groups

open Backend

/-- A press of the send button: the taskId of the entry it addressed, and the message. -/
structure Press where
  taskId : String
  message : String
  deriving DecidableEq

variable {D : Type}

/-- The entry the chat on screen of a device addresses. -/
def addressed (w : World D) (d : D) : Option GroupInfo :=
  (w.device d).app.chat.bind fun s => (w.device d).app.groupInfo[s.chat.groupNumber]?

theorem addressed_mem {w : World D} {d : D} {g : GroupInfo} (h : addressed w d = some g) :
  g ∈ (w.device d).app.groupInfo
  := by
  obtain ⟨s, -, hg⟩ := Option.bind_eq_some_iff.mp h
  apply List.mem_of_getElem? hg

/-- The press an event is, if it is one. -/
def pressed (w : World D) : Event D → List Press
  | .act d (.commitBtn message _) =>
      match addressed w d with
      | some g => [⟨g.taskId, message⟩]
      | none => []
  | _ => []

/-- The messages `talks` are a history of the group `t` after the presses `ps`: none, or
five empty ones and the messages of some presses for `t`, in their order and none of them
twice. -/
def IsHistory (ps : List Press) (t : String) (talks : List String) : Prop :=
  talks = [] ∨ ∃ qs : List Press, qs ≠ [] ∧ qs.Sublist (ps.filter fun p => p.taskId = t)
    ∧ talks = List.replicate 5 "" ++ qs.map Press.message

theorem isHistory_nil (ps : List Press) (t : String) :
  IsHistory ps t []
  := .inl rfl

/-- A history stays one when more presses are made. -/
theorem IsHistory.append {ps : List Press} {t : String} {talks : List String}
    (h : IsHistory ps t talks) (ps' : List Press) :
  IsHistory (ps ++ ps') t talks
  := by
  rcases h with rfl | ⟨qs, hqs, hsub, rfl⟩
  · left
    rfl
  · refine .inr ⟨qs, hqs, ?_, rfl⟩
    rw [List.filter_append]
    apply hsub.trans (List.sublist_append_left _ _)

/-- A press extends a history of its group by its message. -/
theorem IsHistory.extend {ps : List Press} {t : String} {talks : List String}
    (h : IsHistory ps t talks) (message : String) :
  IsHistory (ps ++ [⟨t, message⟩]) t (GroupInfo.extendTalks talks message)
  := by
  have hfilter : (ps ++ [(⟨t, message⟩ : Press)]).filter (fun p => p.taskId = t)
      = ps.filter (fun p => p.taskId = t) ++ [⟨t, message⟩] := by
    simp [List.filter_append]
  rcases h with rfl | ⟨qs, hqs, hsub, rfl⟩
  · refine .inr ⟨[⟨t, message⟩], by simp, ?_, by simp [GroupInfo.extendTalks]⟩
    rw [hfilter]
    apply List.sublist_append_right
  · refine .inr ⟨qs ++ [⟨t, message⟩], by simp, ?_, by simp [GroupInfo.extendTalks]⟩
    rw [hfilter]
    apply hsub.append (List.Sublist.refl _)

/-- A document with id `id` is the encoding of a group with this taskId and a history of
it. -/
def HistoryDocument (ps : List Press) (id : String) (doc : Document) : Prop :=
  ∃ g, GroupInfo.decode doc = .ok g ∧ g.taskId = id ∧ IsHistory ps id g.groupMemberTalks

/-- The entries of `groupInfo` hold histories, and the group to be created holds none. -/
structure HistoryApp (ps : List Press) (app : App) : Prop where
  groupInfo : ∀ g ∈ app.groupInfo, IsHistory ps g.taskId g.groupMemberTalks
  make : ∀ screen, app.make = some screen → screen.groupCandidate.groupMemberTalks = []

theorem HistoryDocument.append {ps : List Press} {id : String} {doc : Document}
    (h : HistoryDocument ps id doc) (ps' : List Press) :
  HistoryDocument (ps ++ ps') id doc
  := by
  obtain ⟨g, hg, hid, hh⟩ := h
  use g, hg, hid, hh.append ps'

theorem HistoryApp.append {ps : List Press} {app : App} (h : HistoryApp ps app)
    (ps' : List Press) :
  HistoryApp (ps ++ ps') app
  where
  groupInfo g hg := (h.groupInfo g hg).append ps'
  make := h.make

theorem historyDocument_encode {ps : List Press} {g : GroupInfo}
    (h : IsHistory ps g.taskId g.groupMemberTalks) :
  HistoryDocument ps g.taskId g.encode
  := ⟨g, GroupInfo.decode_encode g, rfl, h⟩

/-- A group that a read finds among documents with histories has a history. -/
theorem isHistory_of_mem_loaded {ps : List Press} {c : Collection String Document}
    (hc : c.All (HistoryDocument ps)) {g : GroupInfo} (hg : g ∈ loaded c) :
  IsHistory ps g.taskId g.groupMemberTalks
  := by
  obtain ⟨i, doc, hi, hdec⟩ := mem_loaded.mp hg
  obtain ⟨g', hdec', rfl, hh⟩ := hc i doc hi
  obtain rfl : g' = g := by simpa [hdec'] using hdec
  apply hh

section Step

variable [DecidableEq D] {w w' : World D} {e : Event D} {d : D} {ps : List Press}

/-- The world with its histories after the presses `ps`. -/
abbrev Histories (ps : List Press) (w : World D) : Prop :=
  Everywhere (HistoryDocument ps) (HistoryApp ps) w

omit [DecidableEq D] in
theorem histories_initial :
  Histories [] (World.initial : World D)
  := by
  apply Everywhere.of_empty rfl (fun _ => rfl)
  intro d
  constructor
  · intro g hg
    simp [World.initial, App.stopped] at hg
  · intro screen hs
    simp [World.initial, App.stopped] at hs

omit [DecidableEq D] in
theorem addressed_of_sends {app : App} {cs : List Command} {g : GroupInfo} {message : String}
    {now : Timestamp} (h : Sends w d e app cs g message now) :
  addressed w d = some g
  := by
  obtain ⟨s, hs, hg, -⟩ := h.chat
  rw [addressed, hs, Option.bind_some, hg]

omit [DecidableEq D] in
theorem pressed_of_sends {app : App} {cs : List Command} {g : GroupInfo} {message : String}
    {now : Timestamp} (h : Sends w d e app cs g message now) :
  pressed w e = [⟨g.taskId, message⟩]
  := by
  rw [h.event, pressed, addressed_of_sends h]

omit [DecidableEq D] in
/-- Every handler keeps the histories: a message that is sent extends the history of its
group, and everything else is empty or a copy. -/
theorem respects_histories (hkeyed : Keyed w) (h : Histories ps w)
    {c : Client String Document Query Chat} {eff : Effect}
    (hh : handler program w e = some (d, c, some eff)) :
  eff.Respects (HistoryDocument (ps ++ pressed w e)) (HistoryApp (ps ++ pressed w e))
  := by
  obtain ⟨app, cs⟩ := eff
  have hold := (h.app d).append (pressed w e)
  have hsend : ∀ g message now, Sends w d e app cs g message now →
      IsHistory (ps ++ pressed w e) g.taskId (g.send message now).groupMemberTalks := by
    intro g message now hs
    rw [pressed_of_sends hs]
    apply ((h.app d).groupInfo g hs.mem).extend
  have hcreate : ∀ screen g, Creates w d e app cs screen g →
      IsHistory (ps ++ pressed w e) g.taskId g.groupMemberTalks := by
    intro screen g hs
    rw [hs.groupMemberTalks, (h.app d).make screen hs.make]
    apply isHistory_nil
  constructor
  · constructor
    · apply groupInfo_of_handler hh hold.groupInfo _ hsend hcreate
      intro r hr g hg
      apply (isHistory_of_mem_loaded (h.results d r hr) hg).append
    · apply make_of_handler hh hold.make
  · apply written_of_handler hh (hkeyed.segmented d)
    · intro g message now hs
      apply historyDocument_encode (hsend g message now hs)
    · intro screen g hs
      apply historyDocument_encode (hcreate screen g hs)

/-- A step keeps the histories. -/
theorem histories_step (hkeyed : Keyed w) (h : Histories ps w) (hs : step w e = some w') :
  Histories (ps ++ pressed w e) w'
  := by
  apply h.step (fun _ _ hd => hd.append _) (fun _ ha => ha.append _) _ _ hs
  · intro a
    constructor
    · intro g hg
      cases hg
    · intro screen hscreen
      cases hscreen
  · intro d c eff hh _
    apply respects_histories hkeyed h hh

/-- The presses of a run of the events from `w`. -/
abbrev presses (w : World D) (es : List (Event D)) : List Press :=
  Run.log step pressed w es

/-- In every run from the start, whatever the devices do and in whatever order writes
arrive and reads are answered, every version of every group has a history: on the server,
in a write that has not arrived, in an answer that has not been delivered, and in the
`groupInfo` of every device. -/
theorem chat_histories_wellFormed {es : List (Event D)} (h : run World.initial es = some w) :
  Everywhere (HistoryDocument (presses World.initial es))
    (HistoryApp (presses World.initial es)) w
  := by
  have key : Keyed w ∧ Histories (presses World.initial es) w := by
    apply Run.log_of_step (P := fun ps w => Keyed w ∧ Histories ps w) _
      ⟨keyed_initial, histories_initial⟩ h
    intro ps w e w' hw hs
    exact ⟨keyed_step hw.1 hs, histories_step hw.1 hw.2 hs⟩
  apply key.2

end Step

/-- Two devices send to a group without having seen each other's messages, and the one whose
write arrives last overwrites what the other has sent. -/
def threeSent : List (Event Bool) :=
  twoChats ++ [.act true (.commitBtn "a" 2), .act false (.commitBtn "b" 3),
    .act true (.commitBtn "c" 4), .arrive true, .arrive true, .arrive false]

/-- Of the three messages the server keeps one. -/
theorem chat_histories_wellFormed_send :
  ∃ w, run World.initial threeSent = some w
    ∧ Everywhere (HistoryDocument [⟨"t", "a"⟩, ⟨"t", "b"⟩, ⟨"t", "c"⟩])
      (HistoryApp [⟨"t", "a"⟩, ⟨"t", "b"⟩, ⟨"t", "c"⟩]) w
    ∧ ∃ doc ∈ w.server.lookup "t", (GroupInfo.decode doc).toOption.map GroupInfo.groupMemberTalks
      = some ["", "", "", "", "", "b"]
  := by
  have hrun : ∃ w, run World.initial threeSent = some w
      ∧ presses World.initial threeSent = [⟨"t", "a"⟩, ⟨"t", "b"⟩, ⟨"t", "c"⟩]
      ∧ ∃ doc ∈ w.server.lookup "t",
        (GroupInfo.decode doc).toOption.map GroupInfo.groupMemberTalks
          = some ["", "", "", "", "", "b"] := by
    decide +kernel
  obtain ⟨w, hw, hpresses, hserver⟩ := hrun
  refine ⟨w, hw, ?_, hserver⟩
  rw [← hpresses]
  apply chat_histories_wellFormed hw

end Groups

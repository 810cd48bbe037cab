import TaskFirestoreApp.Groups.Visibility
import Mathlib.Data.Fintype.Basic

/-!
# A chat with one writer

When one device alone sends messages to a group, the group holds them all in order exactly
when the device never sends from a stale copy: a copy that differs from the group as the
device sees it at that moment. The writer alone has writes in flight, except for the
creation of the group, which other devices do not see before it has arrived.
-/

namespace Groups

open Backend

variable {D : Type}

/-- The messages of the presses for the group `t`. -/
def sentTo (t : String) (ps : List Press) : List String :=
  (ps.filter fun p => p.taskId = t).map Press.message

/-- The messages of a group to which `ms` were sent. -/
def padded (ms : List String) : List String :=
  if ms = [] then [] else List.replicate 5 "" ++ ms

/-- Only the device `d` sends to the group `t`. -/
def OnlyWriter (d : D) (t : String) (w : World D) (e : Event D) : Prop :=
  ∀ p ∈ commitOf e, ∀ g ∈ addressed w p.1, g.taskId = t → p.1 = d

/-- A copy of the group `t` that is sent is up to date: it holds the messages that its
device sees. -/
def UpToDate (t : String) (w : World D) (e : Event D) : Prop :=
  ∀ p ∈ commitOf e, ∀ g ∈ addressed w p.1, g.taskId = t →
    g.groupMemberTalks = talks ((w.view p.1).lookup t)

/-- All writes of the group `t` have arrived. -/
def Arrived (t : String) (w : World D) : Prop :=
  ∀ d, ∀ x ∈ (w.device d).client.unarrived, x.id ≠ t

theorem sentTo_append (t : String) (ps ps' : List Press) :
  sentTo t (ps ++ ps') = sentTo t ps ++ sentTo t ps'
  := by
  simp [sentTo]

theorem extendTalks_padded (ms : List String) (message : String) :
  GroupInfo.extendTalks (padded ms) message = padded (ms ++ [message])
  := by
  by_cases h : ms = []
  · simp [GroupInfo.extendTalks, padded, h]
  · simp [GroupInfo.extendTalks, padded, h]

theorem length_padded {ms : List String} (h : ms ≠ []) :
  (padded ms).length = 5 + ms.length
  := by
  rw [padded, if_neg h, List.length_append, List.length_replicate]

/-- A history of a group that does not hold all messages sent to it is short of one, also
after the next message. -/
theorem IsHistory.length_extend {ps : List Press} {t : String} {l : List String}
    (h : IsHistory ps t l) (hne : l ≠ padded (sentTo t ps)) (message : String) :
  sentTo t ps ≠ [] ∧ (GroupInfo.extendTalks l message).length ≤ 5 + (sentTo t ps).length
  := by
  rcases h with rfl | ⟨qs, hqs, hsub, rfl⟩
  · have hsent : sentTo t ps ≠ [] := by
      rintro hsent
      simp [hsent, padded] at hne
    have := List.length_pos_iff.mpr hsent
    exact ⟨hsent, by simp [GroupInfo.extendTalks]; omega⟩
  · have hlength : qs.length < (ps.filter fun p => p.taskId = t).length := by
      apply lt_of_le_of_ne hsub.length_le
      intro heq
      obtain rfl := hsub.eq_of_length heq
      apply hne
      simp [padded, sentTo, hqs]
    constructor
    · intro hsent
      simp only [sentTo, List.map_eq_nil_iff] at hsent
      simp [hsent] at hlength
    · simp only [GroupInfo.extendTalks, sentTo, List.length_map]
      simp
      omega

theorem IsHistory.length_le {ps : List Press} {t : String} {l : List String}
    (h : IsHistory ps t l) :
  l.length ≤ 5 + (sentTo t ps).length
  := by
  rcases h with rfl | ⟨qs, -, hsub, rfl⟩
  · simp
  · rw [List.length_append, List.length_replicate, List.length_map, sentTo, List.length_map]
    apply Nat.add_le_add_left hsub.length_le 5

/-! ### The phases of a group -/

section Step

variable [DecidableEq D] {t : String} {w w' : World D} {e : Event D} {d : D} {ps : List Press}

/-- The group was created on another device than `d` and its creation has not arrived, or
only `d` has writes in flight and sees the messages `ms`. -/
inductive Phase (d : D) (t : String) (ms : List String) (w : World D) : Prop
  | born (f : D) (doc : Document) (hne : f ≠ d) (htalks : talks (some doc) = []) (hms : ms = [])
      (hregister : w.register (fun doc => doc) t
        = ⟨none, Function.update (fun _ => []) f [some doc]⟩)
  | alone (hothers : ∀ f, f ≠ d → (w.register (fun doc => doc) t).queue f = [])
      (hview : talks ((w.register (fun doc => doc) t).view d) = padded ms)

omit [DecidableEq D] in
/-- An event is a press for the group `t`, or adds no message to it. -/
theorem sentTo_pressed_cases (w : World D) (e : Event D) (t : String) :
  sentTo t (pressed w e) = []
    ∨ ∃ d g message now, e = .act d (.commitBtn message now) ∧ addressed w d = some g
      ∧ g.taskId = t ∧ sentTo t (pressed w e) = [message]
  := by
  unfold pressed
  split
  · next d message now =>
      split
      · next g hg =>
          by_cases hid : g.taskId = t
          · right
            exact ⟨d, g, message, now, rfl, hg, hid, by simp [sentTo, hid]⟩
          · left
            simp [sentTo, hid]
      · left
        rfl
  · left
    rfl

theorem phase_initial (d : D) (t : String) :
  Phase d t [] (World.initial : World D)
  := .alone (fun _ _ => rfl) rfl

/-- A device that is not the creator cannot address a group before its creation has
arrived. -/
theorem view_of_born {f : D} {doc : Document} (hne : f ≠ d)
    (h : w.register (fun doc => doc) t = ⟨none, Function.update (fun _ => []) f [some doc]⟩) :
  (w.view d).lookup t = none
  := by
  rw [← register_view (fun doc => doc) t, h, Register.view_of_nil]
  simp [Ne.symm hne]

/-- A message that the writer sends from an up-to-date copy is appended to what it sees. -/
theorem phase_press {g : GroupInfo} {message : String} {now : Timestamp} {ms : List String}
    (hkeyed : Keyed w) (hvisible : Visible t w) (h : Phase d t ms w) (hg : addressed w d = some g)
    (hid : g.taskId = t) (hC : g.groupMemberTalks = talks ((w.view d).lookup t))
    (hs : step w (.act d (.commitBtn message now)) = some w') :
  Phase d t (ms ++ [message]) w'
  := by
  cases h with
  | born f doc hne htalks hms hregister =>
      have hview := hvisible.groupInfo d g (addressed_mem hg) hid
      simp [view_of_born hne hregister] at hview
  | alone hothers hview =>
      have hregister := register_of_press (fun doc => doc) hg
        (hkeyed.segmented d g (addressed_mem hg)) hs
      rw [hid] at hregister
      apply Phase.alone
      · intro f hf
        rw [hregister, Register.issue_queue_of_ne hf, hothers f hf]
      · rw [hregister, Register.issue_view_self, talks_encode, ← extendTalks_padded, ← hview,
          register_view, ← hC]
        rfl

theorem phase_arrive {f : D} {ms : List String} (h : Phase d t ms w)
    (heq : w'.register (fun doc => doc) t = (w.register (fun doc => doc) t).arrive f) :
  Phase d t ms w'
  := by
  cases h with
  | born f' doc hne htalks hms hregister =>
      rcases eq_or_ne f f' with rfl | hf
      · apply Phase.alone
        · intro e he
          rw [heq, hregister]
          rcases eq_or_ne e f with rfl | hef
          · simp
          · simp [hef]
        · have hqueue : (w.register (fun doc => doc) t).queue f = [some doc] := by
            simp [hregister]
          rw [heq, Register.view_of_nil (by simp [hregister, Ne.symm hne]),
            Register.arrive_value_of_cons hqueue, htalks, hms]
          rfl
      · apply Phase.born f' doc hne htalks hms
        rw [heq, hregister, Register.arrive_of_nil (by simp [hf])]
  | alone hothers hview =>
      rcases eq_or_ne f d with rfl | hf
      · apply Phase.alone
        · intro e he
          rw [heq, Register.arrive_queue_of_ne he, hothers e he]
        · rw [heq, Register.arrive_view_self, hview]
      · rw [Register.arrive_of_nil (hothers f hf)] at heq
        apply Phase.alone
        · rwa [heq]
        · rwa [heq]

theorem phase_create {f : D} {ms : List String} {g : GroupInfo} (h : Phase d t ms w)
    (hfresh : Fresh t w) (hempty : g.groupMemberTalks = [])
    (heq : w'.register (fun doc => doc) t
      = (w.register (fun doc => doc) t).issue f [some g.encode]) :
  Phase d t ms w'
  := by
  have hregister := register_of_fresh (fun doc => doc) hfresh
  rw [hregister] at heq
  cases h with
  | born f' doc hne _ _ hregister' =>
      have := congrArg (fun r => r.queue f') (hregister.symm.trans hregister')
      simp at this
  | alone hothers hview =>
      have hms : ms = [] := by
        by_contra hms
        rw [hregister] at hview
        simp [Register.view, padded, hms] at hview
      rcases eq_or_ne f d with rfl | hf
      · apply Phase.alone
        · intro e he
          rw [heq, Register.issue_queue_of_ne he]
        · rw [heq, Register.issue_view_self, talks_encode, hempty, hms]
          rfl
      · apply Phase.born f g.encode hf hempty hms
        rw [heq]
        rfl

/-- A step that sends only from up-to-date copies of the writer keeps the phases. -/
theorem phase_step (hhistories : Histories ps w) (hkeyed : Keyed w) (hvisible : Visible t w)
    (h : Phase d t (sentTo t ps) w) (hwriter : OnlyWriter d t w e) (hspares : Spares t w e)
    (hC : UpToDate t w e) (hs : step w e = some w') :
  Phase d t (sentTo t (ps ++ pressed w e)) w'
  := by
  rw [sentTo_append]
  rcases sentTo_pressed_cases w e t with hnone | ⟨f, g, message, now, rfl, hg, hid, hpress⟩
  · rw [hnone, List.append_nil]
    rcases register_cases (fun doc => doc) t hkeyed hs with heq | ⟨f, -, heq⟩
      | ⟨f, g, message, now, rfl, hg, hid, -⟩ | ⟨f, app, cs, screen, g, hs', -, hfresh, heq⟩
      | ⟨f, row, g, rfl, hg, hid, -⟩
    · cases h with
      | born f doc hne htalks hms hregister =>
          apply Phase.born f doc hne htalks hms (heq.trans hregister)
      | alone hothers hview =>
          apply Phase.alone
          · rwa [heq]
          · rwa [heq]
    · apply phase_arrive h heq
    · simp [pressed, hg, sentTo, hid] at hnone
    · apply phase_create h (hkeyed.fresh hfresh) _ heq
      obtain ⟨_, _, _, -, -, hcreated⟩ := hs'.event
      rw [hcreated]
      apply (hhistories.app f).make screen hs'.make
    · exact absurd hid (hspares (f, row) rfl g hg)
  · obtain rfl : f = d := hwriter (f, message) rfl g hg hid
    rw [hpress]
    apply phase_press hkeyed hvisible h hg hid (hC (f, message) rfl g hg hid) hs

/-! ### Up-to-date copies -/

/-- A run in which the writer sends only up-to-date copies keeps the phases. -/
theorem phase_of_upToDate {es : List (Event D)} (h : run World.initial es = some w)
    (hwriter : Run.Along step (OnlyWriter d t) World.initial es)
    (hspares : Run.Along step (Spares t) World.initial es)
    (hC : Run.Along step (UpToDate t) World.initial es) :
  Histories (presses World.initial es) w ∧ Keyed w ∧ Visible t w
    ∧ Phase d t (sentTo t (presses World.initial es)) w
  := by
  let P : List Press → World D → Prop := fun ps w =>
    Histories ps w ∧ Keyed w ∧ Visible t w ∧ Phase d t (sentTo t ps) w
  suffices P ([] ++ presses World.initial es) w by simpa [P] using this
  apply Run.exec_induction _ _ (hwriter.and (hspares.and hC)) h
  · rintro ps w e w' ⟨hhistories, hkeyed, hvisible, hphase⟩ ⟨hwriter, hspares, hC⟩ hs
    exact ⟨histories_step hkeyed hhistories hs, keyed_step hkeyed hs,
      visible_step hkeyed hvisible hspares hs,
      phase_step hhistories hkeyed hvisible hphase hwriter hspares hC hs⟩
  · use histories_initial, keyed_initial, visible_initial t, phase_initial d t

theorem talks_of_phase {ms : List String} (h : Phase d t ms w) (harrived : Arrived t w) :
  talks (w.server.lookup t) = padded ms
  := by
  have hqueue : ∀ f, (w.register (fun doc => doc) t).queue f = [] := by
    intro f
    simpa [World.register] using harrived f
  cases h with
  | born f doc hne htalks hms hregister =>
      have := hqueue f
      simp [hregister] at this
  | alone hothers hview =>
      rwa [Register.view_of_nil (hqueue d)] at hview

/-- When the writer addresses the group, it sees the messages that were sent. -/
theorem view_of_phase {ms : List String} {g : GroupInfo} (hvisible : Visible t w)
    (h : Phase d t ms w) (hg : addressed w d = some g) (hid : g.taskId = t) :
  talks ((w.view d).lookup t) = padded ms
  := by
  cases h with
  | born f doc hne htalks hms hregister =>
      have hview := hvisible.groupInfo d g (addressed_mem hg) hid
      simp [view_of_born hne hregister] at hview
  | alone hothers hview => rwa [register_view] at hview

/-! ### Stale copies -/

/-- Every version of the group `t` has fewer than `n` messages. -/
abbrev Short (t : String) (n : ℕ) (w : World D) : Prop :=
  Everywhere (fun id doc => id = t → (talks (some doc)).length < n)
    (fun app => ∀ g ∈ app.groupInfo, g.taskId = t → g.groupMemberTalks.length < n) w

omit [DecidableEq D] in
theorem short_of_histories (h : Histories ps w) :
  Short t (5 + (sentTo t ps).length + 1) w
  := by
  apply h.mono
  · rintro id doc ⟨g, hg, rfl, hhistory⟩ rfl
    have := hhistory.length_le
    simp only [talks, Option.map_some, hg]
    omega
  · rintro app happ g hg rfl
    have := (happ.groupInfo g hg).length_le
    omega

/-- A bound on the messages grows with a step as a message that is sent requires. -/
theorem short_step {n n' : ℕ} (hn : n ≤ n') (hpos : 0 < n') (hkeyed : Keyed w)
    (hhistories : Histories ps w) (h : Short t n w)
    (hpress : ∀ d g message now, e = .act d (.commitBtn message now) → addressed w d = some g →
      g.taskId = t → (GroupInfo.extendTalks g.groupMemberTalks message).length < n')
    (hs : step w e = some w') :
  Short t n' w'
  := by
  have hdoc : ∀ (id : String) (doc : Document), (id = t → (talks (some doc)).length < n) →
      id = t → (talks (some doc)).length < n' :=
    fun id doc hd hid => (hd hid).trans_le hn
  have happ : ∀ app : App,
      (∀ g ∈ app.groupInfo, g.taskId = t → g.groupMemberTalks.length < n) →
      ∀ g ∈ app.groupInfo, g.taskId = t → g.groupMemberTalks.length < n' :=
    fun app ha g hg hid => (ha g hg hid).trans_le hn
  apply h.step hdoc happ _ _ hs
  · intro app g hg
    cases hg
  · rintro f c ⟨app, cs⟩ hh -
    have hsend : ∀ g message now, Sends w f e app cs g message now → g.taskId = t →
        (g.send message now).groupMemberTalks.length < n' := by
      intro g message now hs hid
      apply hpress f g message now hs.event (addressed_of_sends hs) hid
    have hcreate : ∀ screen g, Creates w f e app cs screen g → g.taskId = t →
        g.groupMemberTalks.length < n' := by
      intro screen g hs hid
      rwa [hs.groupMemberTalks, (hhistories.app f).make screen hs.make]
    constructor
    · apply groupInfo_of_handler hh (happ _ (h.app f)) _ hsend hcreate
      intro r hr g hg hid
      obtain ⟨i, doc, hi, hdec⟩ := mem_loaded.mp hg
      obtain ⟨g', hdec', hi', -⟩ := hhistories.results f r hr i doc hi
      obtain rfl : g' = g := by simpa [hdec'] using hdec
      have := hdoc i doc (h.results f r hr i doc hi) (hi'.symm.trans hid)
      simpa [talks, hdec] using this
    · apply written_of_handler hh (hkeyed.segmented f) hsend hcreate

/-- Once a stale copy was sent, every version of the group is short of a message. -/
theorem short_of_stale {g : GroupInfo} {message : String} {now : Timestamp}
    (hkeyed : Keyed w) (hhistories : Histories ps w) (hg : addressed w d = some g)
    (hid : g.taskId = t) (hstale : g.groupMemberTalks ≠ padded (sentTo t ps))
    (hs : step w (.act d (.commitBtn message now)) = some w') :
  Short t (5 + (sentTo t ps ++ [message]).length) w'
  := by
  apply short_step _ _ hkeyed hhistories (short_of_histories hhistories) _ hs
  · simp only [List.length_append, List.length_singleton]
    omega
  · omega
  · rintro f g' message' now' he hg' -
    cases he
    obtain rfl : g = g' := Option.some.inj (hg.symm.trans hg')
    have hhistory := (hhistories.app d).groupInfo g (addressed_mem hg)
    have := (hid ▸ hhistory.length_extend (hid ▸ hstale) message).2
    simp only [List.length_append, List.length_singleton]
    omega

/-- Versions that are short of a message stay so. -/
theorem short_of_run {es : List (Event D)} (hpos : sentTo t ps ≠ []) (hkeyed : Keyed w)
    (hhistories : Histories ps w) (h : Short t (5 + (sentTo t ps).length) w)
    (hs : run w es = some w') :
  Short t (5 + (sentTo t (ps ++ presses w es)).length) w'
  := by
  let P : List Press → World D → Prop := fun ps w =>
    Keyed w ∧ Histories ps w ∧ sentTo t ps ≠ [] ∧ Short t (5 + (sentTo t ps).length) w
  suffices P (ps ++ presses w es) w' from this.2.2.2
  apply Run.induction_of_step _ ⟨hkeyed, hhistories, hpos, h⟩ hs
  rintro ps w e w' ⟨hkeyed, hhistories, hpos, h⟩ hs
  have hpos' : sentTo t (ps ++ pressed w e) ≠ [] := by simp [sentTo_append, hpos]
  refine ⟨keyed_step hkeyed hs, histories_step hkeyed hhistories hs, hpos', ?_⟩
  apply short_step _ _ hkeyed hhistories h _ hs
  · simp [sentTo_append]
  · omega
  · rintro d g message now rfl hg hid
    have hpress : sentTo t (pressed w (.act d (.commitBtn message now))) = [message] := by
      simp [pressed, hg, sentTo, hid]
    have hlength := h.app d g (addressed_mem hg) hid
    have := List.length_pos_iff.mpr hpos
    rw [sentTo_append, hpress, List.length_append, List.length_singleton]
    unfold GroupInfo.extendTalks
    split_ifs
    · simp
      omega
    · simp
      omega

omit [DecidableEq D] in
theorem talks_ne_padded {ms : List String} (h : Short t (5 + ms.length) w) (hms : ms ≠ []) :
  talks (w.server.lookup t) ≠ padded ms
  := by
  intro hexact
  have hlength := length_padded hms
  cases hdoc : w.server.lookup t with
  | none =>
      rw [← hexact, hdoc] at hlength
      simp at hlength
      omega
  | some doc =>
      have := h.server t doc hdoc rfl
      rw [← hdoc, hexact, hlength] at this
      omega

/-- When all writes of a group with one writer have arrived, the server holds all messages
that were sent, in order and after the five empty ones, exactly when the writer has never
sent a stale copy. -/
theorem chat_exact_iff {es : List (Event D)} (h : run World.initial es = some w)
    (hwriter : Run.Along step (OnlyWriter d t) World.initial es)
    (hspares : Run.Along step (Spares t) World.initial es) (harrived : Arrived t w) :
  talks (w.server.lookup t) = padded (sentTo t (presses World.initial es))
    ↔ Run.Along step (UpToDate t) World.initial es
  := by
  constructor
  · intro hexact
    rcases Run.along_or_split (C := UpToDate t) h with
      hC | ⟨es₁, e, es₂, w₁, w₂, rfl, h₁, hC₁, hstale, h₂, h₃⟩
    · apply hC
    · rw [Run.along_append h₁] at hwriter hspares
      obtain ⟨hhistories, hkeyed, hvisible, hphase⟩ :=
        phase_of_upToDate h₁ hwriter.1 hspares.1 hC₁
      unfold UpToDate at hstale
      push Not at hstale
      obtain ⟨⟨f, message⟩, hcommit, g, hg, hid, hne⟩ := hstale
      obtain rfl : f = d := ((Run.along_cons h₂).mp hwriter.2).1 _ hcommit g hg hid
      obtain ⟨now, rfl⟩ := commitOf_eq_some.mp hcommit
      rw [view_of_phase hvisible hphase hg hid] at hne
      have hpress : sentTo t (presses World.initial es₁
            ++ pressed w₁ (.act f (.commitBtn message now)))
          = sentTo t (presses World.initial es₁) ++ [message] := by
        have hg' : addressed w₁ f = some g := hg
        simp [sentTo, pressed, hg', hid]
      have hshort := short_of_run (by simp [hpress]) (keyed_step hkeyed h₂)
        (histories_step hkeyed hhistories h₂)
        (hpress ▸ short_of_stale hkeyed hhistories hg hid hne h₂) h₃
      rw [presses, Run.log_append h₁, Run.log_cons h₂, ← List.append_assoc] at hexact
      exact absurd hexact (talks_ne_padded hshort (by rw [sentTo_append, hpress]; simp))
  · intro hC
    obtain ⟨-, -, -, hphase⟩ := phase_of_upToDate h hwriter hspares hC
    apply talks_of_phase hphase harrived

end Step

section Decidable

variable (t : String) (w : World D) (e : Event D)

instance [DecidableEq D] (d : D) : Decidable (OnlyWriter d t w e) :=
  inferInstanceAs (Decidable
    (∀ p ∈ commitOf e, ∀ g ∈ addressed w p.1, g.taskId = t → p.1 = d))

instance : Decidable (UpToDate t w e) :=
  inferInstanceAs (Decidable (∀ p ∈ commitOf e, ∀ g ∈ addressed w p.1, g.taskId = t →
    g.groupMemberTalks = talks ((w.view p.1).lookup t)))

instance [Fintype D] : Decidable (Arrived t w) :=
  inferInstanceAs (Decidable (∀ d, ∀ x ∈ (w.device d).client.unarrived, x.id ≠ t))

end Decidable

/-- A device creates a group and opens its chat. -/
def ownChat : List (Event Unit) :=
  started () ++ makesGroup () "g" "t" 1 ++ opensList () ++ opensChat () 0

/-- The refresh of the chat is answered before the first message is sent and delivered
before the second one is. -/
def staleRefresh : List (Event Unit) :=
  ownChat ++ [.snapshot () 0, .answer () 0, .act () (.commitBtn "a" 3), .deliver () 0 (),
    .act () (.commitBtn "b" 4), .arrive (), .arrive (), .arrive ()]

/-- The refresh of the chat is delivered before anything is sent. -/
theorem chat_exact_refreshed :
  ∃ w, run World.initial (ownChat ++ [.snapshot () 0, .answer () 0, .deliver () 0 (),
      .act () (.commitBtn "a" 3), .act () (.commitBtn "b" 4), .arrive (), .arrive (), .arrive ()])
      = some w
    ∧ talks (w.server.lookup "t") = padded ["a", "b"]
  := by
  have hrun : ∃ w ∈ run World.initial (ownChat ++ [.snapshot () 0, .answer () 0, .deliver () 0 (),
      .act () (.commitBtn "a" 3), .act () (.commitBtn "b" 4), .arrive (), .arrive (), .arrive ()]),
      Arrived "t" w ∧ sentTo "t" (presses World.initial (ownChat ++ [.snapshot () 0, .answer () 0,
        .deliver () 0 (), .act () (.commitBtn "a" 3), .act () (.commitBtn "b" 4), .arrive (),
        .arrive (), .arrive ()])) = ["a", "b"] := by
    decide +kernel
  obtain ⟨w, hw, harrived, hsent⟩ := hrun
  use w, hw
  rw [← hsent]
  apply (chat_exact_iff (d := ()) hw _ _ harrived).mpr
  · decide +kernel
  · decide +kernel
  · decide +kernel

/-- A lone writer loses a message to its own refresh. -/
theorem not_chat_exact :
  ¬ ∀ (d : Unit) (t : String) (es : List (Event Unit)) (w : World Unit),
    run World.initial es = some w → (∀ e ∈ es, e.Orderly) →
    Run.Along step (OnlyWriter d t) World.initial es → Run.Along step (Spares t) World.initial es →
    Arrived t w → talks (w.server.lookup t) = padded (sentTo t (presses World.initial es))
  := by
  intro h
  have hrun : ∃ w ∈ run World.initial staleRefresh, Arrived "t" w
      ∧ talks (w.server.lookup "t") ≠ padded (sentTo "t" (presses World.initial staleRefresh)) := by
    decide +kernel
  obtain ⟨w, hw, harrived, hlost⟩ := hrun
  apply hlost
  apply h () "t" staleRefresh w hw _ _ _ harrived
  · decide +kernel
  · decide +kernel
  · decide +kernel

end Groups

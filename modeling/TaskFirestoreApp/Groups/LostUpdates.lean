import TaskFirestoreApp.Groups.Registers
import Mathlib.Data.Fintype.Basic
import Mathlib.Data.Set.BooleanAlgebra
import Mathlib.Order.CompletePartialOrder

/-!
# Messages that are kept

A message is sent by overwriting the group with the copy of the device that sends it. The
message is kept once it has arrived, if every copy that is sent is complete: it holds all
messages its device sees, and exactly those of the copies that other devices have sent and
that have not arrived. A copy that is not complete erases messages.
-/

namespace Groups

open Backend

variable {D : Type}

/-- The messages of a document, in no order. -/
def messages (doc : Option Document) : Set String :=
  {m | m ∈ talks doc}

/-- The copy `g` holds the message `m` once `message` is sent from it: the first message of
a group is preceded by empty ones. -/
def Carries (g : GroupInfo) (message m : String) : Prop :=
  m ∈ g.groupMemberTalks ∨ m = message ∨ g.groupMemberTalks = [] ∧ m = ""

instance (g : GroupInfo) (message m : String) : Decidable (Carries g message m) :=
  inferInstanceAs (Decidable (_ ∨ _ ∨ _ ∧ _))

theorem mem_extendTalks {g : GroupInfo} {message m : String} :
  m ∈ GroupInfo.extendTalks g.groupMemberTalks message ↔ Carries g message m
  := by
  unfold GroupInfo.extendTalks Carries
  by_cases h : g.groupMemberTalks = []
  · simp [h]
    tauto
  · simp [h]

theorem messages_send {g : GroupInfo} {message : String} {now : Timestamp} :
  messages (some (g.send message now).encode) = {m | Carries g message m}
  := by
  ext m
  apply mem_extendTalks

/-- A copy of the group `t` that is sent is complete: it holds every message its device
sees, and a write of `t` that has not arrived from another device holds the same
messages. -/
def Complete (t : String) (w : World D) (e : Event D) : Prop :=
  ∀ p ∈ commitOf e, ∀ g ∈ addressed w p.1, g.taskId = t →
    (∀ m ∈ talks ((w.view p.1).lookup t), Carries g p.2 m)
      ∧ ∀ f, f ≠ p.1 → ∀ x ∈ (w.device f).client.unarrived, x.id = t →
        ∀ m, m ∈ talks x.doc ↔ Carries g p.2 m

instance (l : List String) (g : GroupInfo) (message : String) :
    Decidable (∀ m, m ∈ l ↔ Carries g message m) :=
  decidable_of_iff
    (l ⊆ GroupInfo.extendTalks g.groupMemberTalks message
      ∧ GroupInfo.extendTalks g.groupMemberTalks message ⊆ l)
    (by simp only [List.subset_def, mem_extendTalks, ← forall_and, iff_def])

instance [DecidableEq D] [Fintype D] (t : String) (w : World D) (e : Event D) :
    Decidable (Complete t w e) :=
  inferInstanceAs (Decidable (∀ p ∈ commitOf e, ∀ g ∈ addressed w p.1, g.taskId = t →
    (∀ m ∈ talks ((w.view p.1).lookup t), Carries g p.2 m)
      ∧ ∀ f, f ≠ p.1 → ∀ x ∈ (w.device f).client.unarrived, x.id = t →
        ∀ m, m ∈ talks x.doc ↔ Carries g p.2 m))

/-- In the run of the events from the start, a message that is sent to the group `t` is in
the document of `t` on the server from the arrival of its write on. -/
def Kept [DecidableEq D] (t : String) (es : List (Event D)) : Prop :=
  ∀ es₁ d message now es₂ w₁ w₂ w₃ g,
    es = es₁ ++ .act d (.commitBtn message now) :: es₂ →
    run World.initial es₁ = some w₁ → addressed w₁ d = some g → g.taskId = t →
    step w₁ (.act d (.commitBtn message now)) = some w₂ → run w₂ es₂ = some w₃ →
    (w₁.device d).client.unarrived.length < es₂.count (.arrive d) →
    message ∈ talks (w₃.server.lookup t)

section Step

variable [DecidableEq D] {t : String} {w w' : World D} {e : Event D} {d : D}

/-- While complete copies are sent, the messages of a group ascend. -/
theorem ascending_step (hkeyed : Keyed w) (h : (w.register messages t).Ascending)
    (hspares : Spares t w e) (hC : Complete t w e) (hs : step w e = some w') :
  (w'.register messages t).Ascending
  := by
  rcases register_cases messages t hkeyed hs with heq | ⟨d, -, heq⟩
    | ⟨d, g, message, now, rfl, hg, hid, heq⟩ | ⟨d, app, cs, screen, g, -, -, hfresh, heq⟩
    | ⟨d, row, g, rfl, hg, hid, -⟩
  · rwa [heq]
  · rw [heq]
    apply h.arrive
  · rw [heq, messages_send]
    obtain ⟨hview, hothers⟩ := hC (d, message) rfl g hg hid
    apply h.issue
    · rw [register_view]
      apply hview
    · intro f hf v hv
      obtain ⟨x, hx, rfl⟩ := List.mem_map.mp hv
      obtain ⟨hx, hxid⟩ := List.mem_filter.mp hx
      have hsame := hothers f hf x hx (by simpa using hxid)
      exact ⟨fun m hm => (hsame m).mpr hm, fun m hm => (hsame m).mp hm⟩
  · rw [heq]
    rw [register_of_fresh messages (hkeyed.fresh hfresh)] at h ⊢
    apply h.issue
    · rw [Register.view_of_nil rfl]
      rintro m ⟨⟩
    · intro f hf v hv
      cases hv
  · exact absurd hid (hspares (d, row) rfl g hg)

/-- In an ascending register of messages, a message on the server stays there. -/
theorem messages_step (hkeyed : Keyed w) (h : (w.register messages t).Ascending)
    (hs : step w e = some w') :
  messages (w.server.lookup t) ≤ messages (w'.server.lookup t)
  := by
  change (w.register messages t).value ≤ (w'.register messages t).value
  rcases register_cases messages t hkeyed hs with heq | ⟨d, -, heq⟩
    | ⟨d, g, message, now, -, -, -, heq⟩ | ⟨d, app, cs, screen, g, -, -, -, heq⟩
    | ⟨d, row, g, -, -, -, heq⟩
  · rw [heq]
  · rw [heq]
    apply h.le_arrive
  · rw [heq, Register.issue_value]
  · rw [heq, Register.issue_value]
  · rw [heq, Register.issue_value]

/-- When every copy of the group that is sent is complete and the group is not deleted, no
message is lost. -/
theorem kept_of_complete {es : List (Event D)}
    (hspares : Run.Along step (Spares t) World.initial es)
    (hC : Run.Along step (Complete t) World.initial es) :
  Kept t es
  := by
  rintro es₁ d message now es₂ w₁ w₂ w₃ g rfl h₁ hg rfl hs h₃ hn
  have hcond := hspares.and hC
  rw [Run.along_append h₁, Run.along_cons hs] at hcond
  obtain ⟨hcond₁, hcond, hcond₂⟩ := hcond
  let I : World D → Prop := fun w => Keyed w ∧ (w.register messages g.taskId).Ascending
  have hI : ∀ w e w', I w → Spares g.taskId w e ∧ Complete g.taskId w e → step w e = some w' →
      I w' :=
    fun w e w' h hc hs => ⟨keyed_step h.1 hs, ascending_step h.1 h.2 hc.1 hc.2 hs⟩
  have hI₁ : I w₁ := by
    apply Run.exec_invariant hI ⟨keyed_initial, _⟩ hcond₁ h₁
    apply Register.ascending_of_nil
    intro d
    rfl
  obtain ⟨s, -, -, hsettle⟩ :=
    settle_of_press hg (hI₁.1.segmented d g (addressed_mem hg)) hs
  apply exec_of_arrived (I := I) (Q := fun w => message ∈ talks (w.server.lookup g.taskId))
    (x := .set g.taskId (g.send message now).encode) hI _ _ (hI w₁ _ w₂ hI₁ hcond hs) _ hcond₂ h₃ hn
  · intro w w' ws _ hx hs
    obtain ⟨_, _, hx', rfl⟩ := arrive_cases hs
    obtain ⟨rfl, rfl⟩ := List.cons.inj (hx.symm.trans hx')
    rw [World.notify_server, World.put_server, Write.lookup_apply]
    simp only [Write.id, if_true]
    apply mem_extendTalks.mpr (.inr (.inl rfl))
  · intro w e w' h hm _ hs
    apply messages_step h.1 h.2 hs hm
  · rcases settle_cases hsettle with ⟨hnone, -⟩ | ⟨app', cs, heff, -, rfl⟩
    · cases hnone
    · cases heff
      simp [Command.written]

end Step

/-- The second device sends after its chat was refreshed with the message of the first. -/
theorem kept_refreshed :
  Kept "t" (twoChats ++ [.act true (.commitBtn "a" 2), .arrive true, .snapshot false 0,
    .answer false 0, .deliver false 0 (), .act false (.commitBtn "b" 3), .arrive false])
  := by
  apply kept_of_complete
  · decide +kernel
  · decide +kernel

/-- A device that sends before its chat is refreshed erases the message of the other. -/
theorem not_kept :
  ¬ ∀ (t : String) (es : List (Event Bool)), Run.Along step (Spares t) World.initial es → Kept t es
  := by
  intro h
  have hrun : ∃ w₁ ∈ run World.initial twoChats, ∃ g ∈ addressed w₁ true, g.taskId = "t"
      ∧ ∃ w₂ ∈ step w₁ (.act true (.commitBtn "a" 2)),
        ∃ w₃ ∈ run w₂ [.arrive true, .act false (.commitBtn "b" 3), .arrive false],
          (w₁.device true).client.unarrived.length < 1 ∧ "a" ∉ talks (w₃.server.lookup "t") := by
    decide +kernel
  obtain ⟨w₁, h₁, g, hg, hid, w₂, h₂, w₃, h₃, hn, hlost⟩ := hrun
  apply hlost
  apply h "t" _ _ twoChats true "a" 2 _ w₁ w₂ w₃ g rfl h₁ hg hid h₂ h₃ hn
  decide +kernel

end Groups

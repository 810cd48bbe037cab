import TaskFirestoreApp.Groups.Histories
import TaskFirestoreApp.Library.Register

/-!
# The register of a group

What the devices know of one group is a register: `register_cases` says that a step leaves
it as it is, lets a value arrive, or issues one value, for a message that is sent, a group
that is created, or a group that is deleted.
-/

namespace Groups

open Backend

/-- The messages of a document, none when it is not there or is not a group. -/
def talks (doc : Option Document) : List String :=
  match doc.map GroupInfo.decode with
  | some (.ok g) => g.groupMemberTalks
  | _ => []

@[simp]
theorem talks_none :
  talks none = []
  := rfl

@[simp]
theorem talks_encode (g : GroupInfo) :
  talks (some g.encode) = g.groupMemberTalks
  := rfl

variable {D : Type}

/-- The device and the message of a press of the send button. -/
def commitOf : Event D → Option (D × String)
  | .act d (.commitBtn message _) => some (d, message)
  | _ => none

theorem commitOf_eq_some {e : Event D} {d : D} {message : String} :
  commitOf e = some (d, message) ↔ ∃ now, e = .act d (.commitBtn message now)
  := by
  constructor
  · intro h
    unfold commitOf at h
    split at h
    · next now =>
        cases h
        use now
    · cases h
  · rintro ⟨now, rfl⟩
    rfl

/-- The device and the row of a swipe on the list. -/
def swipeOf : Event D → Option (D × ℕ)
  | .act d (.commitEditing row) => some (d, row)
  | _ => none

/-- The event does not delete the group `t`. -/
def Spares (t : String) (w : World D) (e : Event D) : Prop :=
  ∀ p ∈ swipeOf e, ∀ g ∈ (w.device p.1).app.groupInfo[p.2]?, g.taskId ≠ t

instance (t : String) (w : World D) (e : Event D) : Decidable (Spares t w e) :=
  inferInstanceAs (Decidable (∀ p ∈ swipeOf e, ∀ g ∈ (w.device p.1).app.groupInfo[p.2]?,
    g.taskId ≠ t))

section

variable {V : Type} (read : Option Document → V) {t : String} {w w' : World D} {e : Event D}

theorem register_of_fresh (h : Fresh t w) :
  w.register read t = ⟨read none, fun _ => []⟩
  := by
  ext1
  · simp [World.register, h.server]
  · funext d
    simpa [World.register] using h.unarrived d

variable [DecidableEq D]

/-- What a step does to the register of a group. -/
theorem register_cases (t : String) (hkeyed : Keyed w) (hs : step w e = some w') :
  w'.register read t = w.register read t
    ∨ (∃ d, e = .arrive d ∧ w'.register read t = (w.register read t).arrive d)
    ∨ (∃ d g message now, e = .act d (.commitBtn message now) ∧ addressed w d = some g
      ∧ g.taskId = t
      ∧ w'.register read t
        = (w.register read t).issue d [read (some (g.send message now).encode)])
    ∨ (∃ d app cs screen g, Creates w d e app cs screen g ∧ g.taskId = t ∧ t ∉ w.issued
      ∧ w'.register read t = (w.register read t).issue d [read (some g.encode)])
    ∨ (∃ d row g, e = .act d (.commitEditing row)
      ∧ (w.device d).app.groupInfo[row]? = some g ∧ g.taskId = t
      ∧ w'.register read t = (w.register read t).issue d [read none])
  := by
  rcases step_cases hs with ⟨d, rfl, h⟩ | ⟨d, i, rfl, h⟩ | ⟨d, c, r, hr, h⟩
  · obtain ⟨x, ws, hx, -⟩ := arrive_cases h
    by_cases hi : x.id = t
    · right
      left
      exact ⟨d, rfl, by simp [register_arrive read t hx h, hi]⟩
    · left
      simp [register_arrive read t hx h, hi]
  · left
    apply register_answer read t h
  · obtain ⟨hc, -, -⟩ := handler_client hr
    cases r with
    | none => exact .inl (register_settle_none read t hc h)
    | some eff =>
        obtain ⟨app, cs⟩ := eff
        have hreg := register_settle read t hc h
        have quiet : ∀ x : Write String Document, cs.filterMap Command.written = [x] → x.id ≠ t →
            w'.register read t = w.register read t := by
          intro x hx hne
          rw [hreg, hx]
          simp [hne]
        rcases handler_cases hr with ⟨g, message, now, hs⟩ | ⟨screen, g, hs⟩ | ⟨row, g, hs⟩ | hs
        · have hwritten := hs.written (hkeyed.segmented d g hs.mem)
          by_cases hid : g.taskId = t
          · refine .inr (.inr (.inl
              ⟨d, g, message, now, hs.event, addressed_of_sends hs, hid, ?_⟩))
            rw [hreg, hwritten]
            simp [hid]
          · left
            apply quiet _ hwritten hid
        · by_cases hid : g.taskId = t
          · refine .inr (.inr (.inr (.inl ⟨d, app, cs, screen, g, hs, hid, ?_, ?_⟩)))
            · apply (settle_issued h).2
              simp [hs.drawn, hid]
            · rw [hreg, hs.written]
              simp [hid]
          · left
            apply quiet _ hs.written hid
        · have hwritten := hs.written (hkeyed.segmented d g hs.mem)
          by_cases hid : g.taskId = t
          · refine .inr (.inr (.inr (.inr ⟨d, row, g, hs.event, hs.entry, hid, ?_⟩)))
            rw [hreg, hwritten]
            simp [hid]
          · left
            apply quiet _ hwritten hid
        · refine .inl ?_
          rw [hreg, hs.written]
          simp

/-- A press of the send button that addresses a group issues one write. -/
theorem settle_of_press {d : D} {g : GroupInfo} {message : String} {now : Timestamp}
    (hg : addressed w d = some g) (hid : IsSegment g.taskId)
    (hs : step w (.act d (.commitBtn message now)) = some w') :
  ∃ s, (w.device d).app.chat = some s
    ∧ (w.device d).app.groupInfo[s.chat.groupNumber]? = some g
    ∧ settle program w d (w.device d).client (some
      ({ (w.device d).app with
          groupInfo := (w.device d).app.groupInfo.set s.chat.groupNumber (g.send message now) },
        [.write (.set g.taskId (g.send message now).encode), .listen g.taskId s.chat])) = some w'
  := by
  obtain ⟨s, hchat, hs'⟩ := Option.bind_eq_some_iff.mp hg
  obtain ⟨⟨f, c, r⟩, hr, h⟩ := Option.bind_eq_some_iff.mp hs
  obtain ⟨-, rfl, rfl, rfl⟩ := handler_act.mp hr
  change settle program w d _ (act (.commitBtn message now) _) = some w' at h
  simp only [act, hchat, Option.bind_some] at h
  rw [TaskGroupDetailViewController.commitBtn_eq_some hs' hid] at h
  use s, hchat, hs', h

/-- A press of the send button issues the extended entry at the register of its group. -/
theorem register_of_press {d : D} {g : GroupInfo} {message : String} {now : Timestamp}
    (hg : addressed w d = some g) (hid : IsSegment g.taskId)
    (hs : step w (.act d (.commitBtn message now)) = some w') :
  w'.register read g.taskId
    = (w.register read g.taskId).issue d [read (some (g.send message now).encode)]
  := by
  obtain ⟨s, -, -, h⟩ := settle_of_press hg hid hs
  have hwritten : ([.write (.set g.taskId (g.send message now).encode), .listen g.taskId s.chat]
      : List Command).filterMap Command.written
        = [.set g.taskId (g.send message now).encode] := rfl
  rw [register_settle read g.taskId rfl h, hwritten]
  simp

end

end Groups

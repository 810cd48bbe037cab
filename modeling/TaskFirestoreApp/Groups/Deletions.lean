import TaskFirestoreApp.Groups.Registers
import Mathlib.Data.Fintype.Basic

/-!
# Deleted groups

A group whose deletion has arrived stays deleted as long as no write of the group was still
under way at that moment, and no device sends a message to it afterwards. Every such write
or message brings the group back once it has arrived.
-/

namespace Groups

open Backend

variable {D : Type}

/-- The device whose oldest write arrives. -/
def arrivalOf : Event D → Option D
  | .arrive d => some d
  | _ => none

theorem arrivalOf_eq_some {e : Event D} {d : D} :
  arrivalOf e = some d ↔ e = .arrive d
  := by
  cases e <;> simp [arrivalOf]

/-- The deletion of the group `t` arrives at the server. -/
def DeleteArrives (t : String) (w : World D) (e : Event D) : Prop :=
  ∃ d ∈ arrivalOf e, (w.device d).client.unarrived.head? = some (.delete t)

/-- No write that is under way sets the document of the group `t`. -/
def NoneUnderway (t : String) (w : World D) : Prop :=
  ∀ d, ∀ x ∈ (w.device d).client.unarrived, x.id = t → x.doc = none

/-- The group `t` is not stored, and no write under way sets it. -/
def Gone (t : String) (w : World D) : Prop :=
  w.server.lookup t = none ∧ NoneUnderway t w

/-- When the deletion of `t` arrives, no write under way sets `t`; and no message is sent to
`t` when it is gone. -/
def DeletesLast (t : String) (w : World D) (e : Event D) : Prop :=
  (DeleteArrives t w e → NoneUnderway t w)
    ∧ ∀ p ∈ commitOf e, ∀ g ∈ addressed w p.1, g.taskId = t → ¬ Gone t w

section Decidable

variable [DecidableEq D] [Fintype D] (t : String) (w : World D) (e : Event D)

instance : Decidable (DeleteArrives t w e) :=
  inferInstanceAs (Decidable (∃ d ∈ arrivalOf e, _))

instance : Decidable (NoneUnderway t w) :=
  inferInstanceAs (Decidable (∀ d, ∀ x ∈ (w.device d).client.unarrived, x.id = t → x.doc = none))

instance : Decidable (Gone t w) :=
  inferInstanceAs (Decidable (_ ∧ _))

instance : Decidable (DeletesLast t w e) :=
  inferInstanceAs (Decidable ((_ → _)
    ∧ ∀ p ∈ commitOf e, ∀ g ∈ addressed w p.1, g.taskId = t → ¬ Gone t w))

end Decidable

theorem gone_iff_still {t : String} {w : World D} :
  Gone t w ↔ (w.register (fun doc => doc) t).Still none
  := by
  simp only [Gone, NoneUnderway, Register.Still, forall_mem_queue]
  rfl

/-- In the run of the events from the start, once the deletion of the group `t` has arrived,
the server never holds a document of `t` again. -/
def Final [DecidableEq D] (t : String) (es : List (Event D)) : Prop :=
  ∀ es₁ e es₂ es₃ w₁ w₂, es = es₁ ++ e :: (es₂ ++ es₃) → run World.initial es₁ = some w₁ →
    DeleteArrives t w₁ e → run w₁ (e :: es₂) = some w₂ → w₂.server.lookup t = none

section Step

variable [DecidableEq D] {t : String} {w w' : World D} {e : Event D} {d : D}

/-- A group is gone when its deletion arrives and no write under way sets it. -/
theorem gone_of_deleteArrives (he : DeleteArrives t w e) (h : NoneUnderway t w)
    (hs : step w e = some w') :
  Gone t w'
  := by
  obtain ⟨d, hd, hhead⟩ := he
  obtain rfl := arrivalOf_eq_some.mp hd
  obtain ⟨x, ws, hx, -⟩ := arrive_cases hs
  obtain rfl : x = .delete t := by simpa [hx] using hhead
  have hqueue : (w.register (fun doc => doc) t).queue d
      = none :: (ws.filter fun x => x.id = t).map Write.doc := by
    simp [World.register, hx]
  rw [gone_iff_still, register_arrive (fun doc => doc) t hx hs, Write.id_delete, if_pos rfl]
  apply Register.still_arrive hqueue
  intro f
  apply (forall_mem_queue (fun doc => doc) t (P := fun v => v = none)).mpr (h f)

/-- A group that is gone stays so if no message is sent to it. -/
theorem gone_step (hkeyed : Keyed w) (hissued : t ∈ w.issued) (h : Gone t w)
    (hC : DeletesLast t w e) (hs : step w e = some w') :
  Gone t w'
  := by
  rw [gone_iff_still]
  have hstill := gone_iff_still.mp h
  rcases register_cases (fun doc => doc) t hkeyed hs with heq | ⟨f, -, heq⟩
    | ⟨f, g, message, now, rfl, hg, hid, -⟩ | ⟨f, app, cs, screen, g, -, -, hfresh, -⟩
    | ⟨f, row, g, -, -, -, heq⟩
  · rwa [heq]
  · rw [heq]
    apply hstill.arrive
  · exact absurd h (hC.2 (f, message) rfl g hg hid)
  · exact absurd hissued hfresh
  · rw [heq, Register.still_issue]
    use hstill
    simp

/-- In a run whose deletions come last, a deletion is final. -/
theorem final_of_along {es : List (Event D)}
    (hC : Run.Along step (DeletesLast t) World.initial es) :
  Final t es
  := by
  rintro es₁ e es₂ es₃ w₁ w₂ rfl h₁ he hs
  obtain ⟨w₁', hw₁', hs⟩ := Run.exec_cons_iff.mp hs
  rw [Run.along_append h₁, Run.along_cons hw₁', Run.along_append hs] at hC
  obtain ⟨-, hCe, hC, -⟩ := hC
  have hissued : t ∈ w₁'.issued := by
    obtain ⟨d, -, hhead⟩ := he
    apply step_issued hw₁'
    apply (keyed_of_run h₁).writes d _ (List.mem_of_head? hhead)
  apply (Run.exec_invariant (I := fun w => Keyed w ∧ t ∈ w.issued ∧ Gone t w) _ _ hC hs).2.2.1
  · rintro w e w' ⟨hkeyed, hw, hgone⟩ hC hs
    exact ⟨keyed_step hkeyed hs, step_issued hs hw, gone_step hkeyed hw hgone hC hs⟩
  · exact ⟨keyed_step (keyed_of_run h₁) hw₁', hissued, gone_of_deleteArrives he (hCe.1 he) hw₁'⟩

/-! ### What brings a group back -/

/-- A group that is gone after a step was gone before, or its deletion arrives. -/
theorem gone_step_cases (hs : step w e = some w') (h : Gone t w') :
  Gone t w ∨ DeleteArrives t w e
  := by
  rw [gone_iff_still] at h ⊢
  rcases step_cases hs with ⟨d, rfl, hs⟩ | ⟨d, i, rfl, hs⟩ | ⟨d, c, r, hh, hs⟩
  · obtain ⟨x, ws, hx, -⟩ := arrive_cases hs
    rw [register_arrive (fun doc => doc) t hx hs] at h
    split_ifs at h with hid
    · have hqueue : (w.register (fun doc => doc) t).queue d
          = x.doc :: (ws.filter fun x => x.id = t).map Write.doc := by
        simp [World.register, hx, hid]
      have hdoc : x.doc = none := by
        rw [← h.1, Register.arrive_value_of_cons hqueue]
      right
      refine ⟨d, rfl, ?_⟩
      cases x with
      | set id doc => cases hdoc
      | delete id =>
          obtain rfl := hid
          simp [hx]
    · left
      apply h
  · left
    rwa [register_answer (fun doc => doc) t hs] at h
  · obtain ⟨hc, -, -⟩ := handler_client hh
    left
    cases r with
    | none => rwa [register_settle_none (fun doc => doc) t hc hs] at h
    | some eff =>
        rw [register_settle (fun doc => doc) t hc hs, Register.still_issue] at h
        apply h.1

/-- A group that is gone after a step has not been created by it. -/
theorem issued_of_gone (hs : step w e = some w') (hissued : t ∈ w'.issued) (h : Gone t w') :
  t ∈ w.issued
  := by
  rcases mem_issued_step hs hissued with hissued | ⟨d, c, app, cs, hh, hsettle, hdrawn⟩
  · apply hissued
  · rcases handler_cases hh with ⟨g, message, now, hs⟩ | ⟨screen, g, hs⟩ | ⟨row, g, hs⟩ | hs
    · simp [hs.drawn] at hdrawn
    · -- the document of the new group is under way
      obtain rfl : t = g.taskId := by simpa [hs.drawn] using hdrawn
      have hmem : .set g.taskId g.encode ∈ (w'.device d).client.unarrived := by
        rw [(settle_self hsettle).2.1, hs.written]
        simp
      cases h.2 d _ hmem rfl
    · simp [hs.drawn] at hdrawn
    · simp [hs.drawn] at hdrawn

/-- A group that was created and is gone has been deleted. -/
theorem exists_deleteArrives {es : List (Event D)} (h : run World.initial es = some w)
    (hissued : t ∈ w.issued) (hgone : Gone t w) :
  ∃ es₁ e es₂ w₁, es = es₁ ++ e :: es₂ ∧ run World.initial es₁ = some w₁ ∧ DeleteArrives t w₁ e
  := by
  rcases Run.along_or_split (C := fun w e => ¬ DeleteArrives t w e) h with
    hC | ⟨es₁, e, es₂, w₁, w₂, rfl, h₁, -, he, -, -⟩
  · refine absurd hgone (Run.exec_invariant (I := fun w => t ∈ w.issued → ¬ Gone t w) ?_ ?_ hC h
      hissued)
    · intro w e w' hw he hs hissued' hgone'
      apply hw (issued_of_gone hs hissued' hgone')
      apply (gone_step_cases hs hgone').resolve_right he
    · rintro ⟨⟩
  · exact ⟨es₁, e, es₂, w₁, rfl, h₁, not_not.mp he⟩

/-- A write of `t` that is under way after the deletion of `t` has arrived brings it back. -/
theorem not_final_of_underway {es₀ es₁ es₂ : List (Event D)} {e : Event D} {w₀ w₁ : World D}
    {f : D} {x : Write String Document} (h₀ : run World.initial es₀ = some w₀)
    (he : DeleteArrives t w₀ e) (h₁ : run w₀ (e :: es₁) = some w₁)
    (hx : x ∈ (w₁.device f).client.unarrived) (hid : x.id = t) (hdoc : x.doc ≠ none)
    (h₂ : run w₁ es₂ = some w) :
  ∃ n w', run w (List.replicate n (.arrive f)) = some w'
    ∧ ¬ Final t (es₀ ++ e :: (es₁ ++ es₂) ++ List.replicate n (.arrive f))
  := by
  obtain ⟨n, w', hn, hnil, -⟩ := exists_exec_arrive program w f
  use n, w', hn
  intro hfinal
  obtain ⟨es₃, es₄, w₃, heq, h₃, hlookup⟩ := exists_arrived (Run.exec_append h₂ hn) hx hnil
  apply hdoc
  rw [← hlookup, hid]
  apply hfinal es₀ e (es₁ ++ es₃) es₄ w₀ w₃ _ h₀ he
  · apply Run.exec_append h₁ h₃
  · simp [← heq]

/-- When the deletion stays final whatever arrives after the run, the deletions of the run come
last. -/
theorem along_of_final {es : List (Event D)} (h : run World.initial es = some w)
    (hfinal : ∀ es' w', (∀ e ∈ es', ∃ d, e = .arrive d) → run w es' = some w' →
      Final t (es ++ es')) :
  Run.Along step (DeletesLast t) World.initial es
  := by
  rcases Run.along_or_split (C := DeletesLast t) h with
    hC | ⟨es₁, e, es₂, w₁, w₂, rfl, h₁, -, hnot, hs, h₂⟩
  · apply hC
  have harrivals : ∀ {n} {f : D}, ∀ e ∈ List.replicate n (.arrive f : Event D),
      ∃ d, e = .arrive d := by
    intro n f e he
    use f, List.eq_of_mem_replicate he
  rcases not_and_or.mp hnot with hnot | hnot
  · -- a write of `t` is under way when the deletion arrives
    obtain ⟨he, hnot⟩ := Classical.not_imp.mp hnot
    simp only [NoneUnderway, not_forall] at hnot
    obtain ⟨f, x, hx, hid, hdoc⟩ := hnot
    have hx₂ : x ∈ (w₂.device f).client.unarrived := by
      obtain ⟨d, hd, hhead⟩ := he
      obtain rfl := arrivalOf_eq_some.mp hd
      rcases step_unarrived hs f with ⟨hf, y, hy⟩ | ⟨-, ws, hws⟩
      · obtain rfl := Event.arrive.inj hf
        obtain rfl : y = .delete t := by simpa [hy] using hhead
        rw [hy, List.mem_cons] at hx
        apply hx.resolve_left
        rintro rfl
        exact hdoc rfl
      · rw [hws]
        apply List.mem_append_left _ hx
    have hrun : run w₁ [e] = some w₂ := Run.exec_cons_iff.mpr ⟨w₂, hs, rfl⟩
    obtain ⟨n, w', hn, hlost⟩ := not_final_of_underway h₁ he hrun hx₂ hid hdoc h₂
    exact absurd (hfinal _ w' harrivals hn) hlost
  · -- a message is sent to `t` after the deletion has arrived
    simp only [not_forall, not_not] at hnot
    obtain ⟨⟨d, message⟩, he, g, hg, rfl, hgone⟩ := hnot
    obtain ⟨now, rfl⟩ := commitOf_eq_some.mp he
    obtain ⟨hissued, hsegment⟩ := (keyed_of_run h₁).versions.app d g (addressed_mem hg)
    obtain ⟨es₀, e₀, es₁', w₀, rfl, h₀, he₀⟩ := exists_deleteArrives h₁ hissued hgone
    obtain ⟨w₀', hw₀', h₁'⟩ := Run.exec_append_iff.mp h₁
    obtain rfl : w₀ = w₀' := Option.some.inj (h₀.symm.trans hw₀')
    obtain ⟨s, -, -, hsettle⟩ := settle_of_press hg hsegment hs
    have hx₂ : .set g.taskId (g.send message now).encode ∈ (w₂.device d).client.unarrived := by
      rw [(settle_self hsettle).2.1]
      simp [Command.written]
    obtain ⟨n, w', hn, hlost⟩ := not_final_of_underway h₀ he₀ (Run.exec_snoc h₁' hs) hx₂ rfl
      (by simp) h₂
    apply absurd (hfinal _ w' harrivals hn)
    simpa using hlost

/-- In a run from the start the deletion of a group is final if no write of the group is under
way when the deletion arrives and no message is sent to it afterwards; and only then does it
stay final when the writes that are under way arrive. -/
theorem deletion_final {es : List (Event D)} (h : run World.initial es = some w) :
  (Run.Along step (DeletesLast t) World.initial es → Final t es)
    ∧ ((∀ es' w', (∀ e ∈ es', ∃ d, e = .arrive d) → run w es' = some w' → Final t (es ++ es')) →
      Run.Along step (DeletesLast t) World.initial es)
  := ⟨final_of_along, along_of_final h⟩

end Step

/-- The group of two devices: the first one shows the list, the second one its chat. -/
def listAndChat : List (Event Bool) :=
  started true ++ makesGroup true "g" "t" 1 ++ [.arrive true] ++ opensList true ++ started false
    ++ opensList false ++ opensChat false 0

/-- The first device deletes the group after the message of the second one has arrived. -/
theorem deletion_final_swiped :
  Final "t" (listAndChat ++ [.act false (.commitBtn "a" 2), .arrive false,
    .act true (.commitEditing 0), .arrive true, .snapshot false 0, .answer true 0])
  := by
  have hrun : ∃ w, run World.initial (listAndChat ++ [.act false (.commitBtn "a" 2),
      .arrive false, .act true (.commitEditing 0), .arrive true, .snapshot false 0,
      .answer true 0]) = some w := by
    apply Option.isSome_iff_exists.mp
    decide +kernel
  obtain ⟨w, hw⟩ := hrun
  apply (deletion_final hw).1
  decide +kernel

/-- The second device sends a message from its chat after the deletion has arrived. -/
theorem not_deletion_final :
  ¬ ∀ (t : String) (es : List (Event Bool)), (run World.initial es).isSome → Final t es
  := by
  intro h
  have hrun : ∃ w₁ ∈ run World.initial (listAndChat ++ [.act true (.commitEditing 0)]),
      DeleteArrives "t" w₁ (.arrive true)
        ∧ ∃ w₂ ∈ run w₁ [.arrive true, .act false (.commitBtn "a" 2), .arrive false],
          w₂.server.lookup "t" ≠ none := by
    decide +kernel
  obtain ⟨w₁, h₁, he, w₂, h₂, hlookup⟩ := hrun
  apply hlookup
  apply h "t" _ _ _ (.arrive true) [.act false (.commitBtn "a" 2), .arrive false] [] w₁ w₂ rfl h₁ he
    h₂
  apply Option.isSome_iff_exists.mpr
  exact ⟨w₂, Run.exec_append h₁ h₂⟩

end Groups

import TaskFirestoreApp.Users.Records
import TaskFirestoreApp.Library.Register
import Mathlib.Data.Fintype.Basic

/-!
# One record for each account

A record that was created is stored, or is under way from the device that created it, and
that device sees it. The accounts have one record each exactly as long as a record is created
only for a user of whom no device sees a record.
-/

namespace Users

open Backend UserInfoManager

variable {D : Type}

/-- No two documents of Users are of the same user. -/
def OneRecordEach (w : World D) : Prop :=
  ∀ i j di dj u v, w.server.lookup i = some di → w.server.lookup j = some dj →
    UserInfo.decode di = .ok u → UserInfo.decode dj = .ok v → u.userID = v.userID → i = j

/-- The document of `id` is stored, or under way from the device `d`. -/
def Underway (id : String) (d : D) (w : World D) : Prop :=
  (w.server.lookup id).isSome ∨ ∃ x ∈ (w.device d).client.unarrived, x.id = id

/-- A record is created only for a user of whom no device sees a record. -/
def CreatesFirst (w : World D) (e : Event D) : Prop :=
  ∀ a ∈ created w e, ∀ d, ¬ Stores (w.view d) a.userID

instance [Fintype D] (w : World D) (e : Event D) : Decidable (CreatesFirst w e) :=
  inferInstanceAs (Decidable (∀ a ∈ created w e, ∀ d, ¬ Stores (w.view d) a.userID))

def Event.isArrival : Event D → Bool
  | .arrive _ => true
  | _ => false

section

variable {l : List Creation} {w w' : World D} {e : Event D} {d : D}

/-- The document under the id of a creation is the record that was created. -/
theorem creation_of_isSome (h : Recorded l w) {c : Collection String Document}
    (hc : c.All (RecordedDocument l)) {a : Creation} (ha : a ∈ l)
    (hsome : (c.lookup a.taskId).isSome) :
  ∃ doc u, c.lookup a.taskId = some doc ∧ UserInfo.decode doc = .ok u ∧ u.creation = a
  := by
  obtain ⟨doc, hdoc⟩ := Option.isSome_iff_exists.mp hsome
  obtain ⟨u, hdec, hid, hu⟩ := hc _ doc hdoc
  use doc, u, hdoc, hdec, List.inj_on_of_nodup_map h.nodup hu ha hid

/-- A device sees what is stored and what is under way from it. -/
theorem seen_of_underway (h : Recorded l w) {a : Creation} (ha : a ∈ l)
    (hd : Underway a.taskId d w) :
  Stores (w.view d) a.userID
  := by
  have hsome : ((w.view d).lookup a.taskId).isSome := by
    rwa [World.view, Collection.isSome_lookup_overlay (h.writes d)]
  obtain ⟨doc, u, hdoc, hdec, rfl⟩ := creation_of_isSome h (h.versions.view d) ha hsome
  exact ⟨_, doc, u, hdoc, hdec, rfl⟩

/-- What a device sees was created. -/
theorem creation_of_stores (h : Recorded l w) {userID : String} (hd : Stores (w.view d) userID) :
  userID ∈ l.map Creation.userID
  := by
  obtain ⟨i, doc, u, hdoc, hdec, rfl⟩ := hd
  obtain ⟨v, hdec', -, hv⟩ := h.versions.view d i doc hdoc
  obtain rfl : v = u := by simpa [hdec'] using hdec
  apply List.mem_map.mpr ⟨_, hv, rfl⟩

theorem oneRecordEach_of_nodup (h : Recorded l w) (hl : (l.map Creation.userID).Nodup) :
  OneRecordEach w
  := by
  intro i j di dj u v hi hj hu hv huv
  obtain ⟨u', hu', rfl, hul⟩ := h.versions.server i di hi
  obtain ⟨v', hv', rfl, hvl⟩ := h.versions.server j dj hj
  obtain rfl : u' = u := by simpa [hu'] using hu
  obtain rfl : v' = v := by simpa [hv'] using hv
  apply congrArg Creation.taskId (List.inj_on_of_nodup_map hl hul hvl huv)

variable [DecidableEq D]

theorem underway_step (h : Recorded l w) (hs : step w e = some w') {id : String}
    (hd : Underway id d w) :
  Underway id d w'
  := by
  rcases hd with hd | ⟨x, hx, rfl⟩
  · left
    apply stored_step h hs hd
  · have hdoc := h.writes d x hx
    rcases step_unarrived hs d with ⟨rfl, y, hy⟩ | ⟨-, ws, hws⟩
    · rw [hy] at hx
      rcases List.mem_cons.mp hx with rfl | hx
      · obtain ⟨z, ws, hz, rfl⟩ := arrive_cases hs
        obtain ⟨rfl, -⟩ := List.cons.inj (hy.symm.trans hz)
        refine .inl ?_
        rwa [World.notify_server, World.put_server, Write.lookup_apply, if_pos rfl]
      · right
        use x, hx
    · refine .inr ⟨x, ?_, rfl⟩
      rw [hws]
      apply List.mem_append_left _ hx

theorem underway_of_run {es : List (Event D)} (h : Recorded l w) (hs : run w es = some w')
    {id : String} (hd : Underway id d w) :
  Underway id d w'
  := by
  apply (Run.induction_of_step (f := created) (P := fun l w => Recorded l w ∧ Underway id d w) _
    ⟨h, hd⟩ hs).2
  rintro l w e w' ⟨hw, hw'⟩ hs
  use recorded_step hw hs, underway_step hw hs hw'

omit [DecidableEq D] in
/-- What is under way from a device has arrived when nothing is under way from it. -/
theorem stored_of_underway {id : String} (hd : Underway id d w)
    (hnil : (w.device d).client.unarrived = []) :
  (w.server.lookup id).isSome
  := by
  rcases hd with hd | ⟨x, hx, -⟩
  · apply hd
  · simp [hnil] at hx

/-- Every record is stored, or under way from a device. -/
structure Traced (l : List Creation) (w : World D) : Prop where
  recorded : Recorded l w
  underway : ∀ a ∈ l, ∃ d, Underway a.taskId d w

theorem traced_step (h : Traced l w) (hs : step w e = some w') :
  Traced (l ++ created w e) w'
  := by
  constructor
  · apply recorded_step h.recorded hs
  · intro a ha
    rcases List.mem_append.mp ha with ha | ha
    · obtain ⟨d, hd⟩ := h.underway a ha
      use d, underway_step h.recorded hs hd
    · rcases created_cases hs with hnil | ⟨d, c, app, cs, u, -, hsettle, hcreates, hu⟩
      · simp [hnil] at ha
      · obtain rfl : a = u.creation := by simpa [hu] using ha
        refine ⟨d, .inr ⟨.set u.taskId u.encode, ?_, rfl⟩⟩
        rw [(settle_self hsettle).2.1, hcreates.written]
        apply List.mem_append_right
        apply List.mem_singleton_self

theorem traced_of_run {es : List (Event D)} (h : run World.initial es = some w) :
  Traced (creations World.initial es) w
  := by
  apply Run.log_of_step (P := Traced) _ ⟨recorded_initial, _⟩ h
  · intro l w e w' hw hs
    apply traced_step hw hs
  · intro a ha
    cases ha

/-- While records are created only for users of whom no device sees one, each user has one
record created. -/
theorem nodup_users_step (h : Traced l w) (hl : (l.map Creation.userID).Nodup)
    (hfirst : CreatesFirst w e) (hs : step w e = some w') :
  ((l ++ created w e).map Creation.userID).Nodup
  := by
  rcases created_cases hs with hnil | ⟨d, c, app, cs, u, -, -, -, hu⟩
  · simpa [hnil] using hl
  · rw [hu, List.map_append, List.nodup_append]
    use hl, List.nodup_singleton _
    intro i hi j hj hij
    obtain rfl := List.mem_singleton.mp hj
    obtain ⟨a, ha, rfl⟩ := List.mem_map.mp hi
    obtain ⟨f, hf⟩ := h.underway a ha
    have hstores := seen_of_underway h.recorded ha hf
    rw [hij] at hstores
    apply hfirst u.creation (by simp [hu]) f hstores

theorem nodup_users_of_along {es : List (Event D)} (h : run World.initial es = some w)
    (hC : Run.Along step CreatesFirst World.initial es) :
  ((creations World.initial es).map Creation.userID).Nodup
  := by
  have key : Traced ([] ++ creations World.initial es) w
      ∧ (([] ++ creations World.initial es).map Creation.userID).Nodup := by
    apply Run.exec_induction (f := created)
      (P := fun l w => Traced l w ∧ (l.map Creation.userID).Nodup) _ _ hC h
    · rintro l w e w' ⟨hw, hl⟩ hfirst hs
      use traced_step hw hs, nodup_users_step hw hl hfirst hs
    · exact ⟨⟨recorded_initial, fun a ha => by cases ha⟩, List.nodup_nil⟩
  apply key.2

/-- When each user has one record created, a record is created only for a user of whom no
device sees one. -/
theorem along_of_nodup_users {es : List (Event D)} (h : run World.initial es = some w)
    (hl : ((creations World.initial es).map Creation.userID).Nodup) :
  Run.Along step CreatesFirst World.initial es
  := by
  rcases Run.along_or_split (C := CreatesFirst) h with
    halong | ⟨es₁, e, es₂, w₁, w₂, rfl, hw₁, -, hnot, hs, -⟩
  · apply halong
  · refine absurd ?_ hnot
    intro a ha d hstores
    have hbefore := creation_of_stores (recorded_of_run hw₁) hstores
    rw [creations, Run.log_append hw₁, Run.log_cons hs, List.map_append, List.nodup_append] at hl
    refine hl.2.2 _ hbefore _ ?_ rfl
    rw [List.map_append]
    apply List.mem_append_left
    apply List.mem_map_of_mem ha

omit [DecidableEq D] in
theorem createsFirst_of_isArrival (he : e.isArrival) :
  CreatesFirst w e
  := by
  cases e with
  | arrive d =>
      intro a ha
      cases ha
  | _ => cases he

/-- No user has two documents on the server, then or when the writes that are under way
arrive, exactly when every record of the run was created for a user of whom no device saw a
record. -/
theorem oneRecordEach_iff {es : List (Event D)} (h : run World.initial es = some w) :
  (∀ es' w', (∀ e ∈ es', e.isArrival) → run w es' = some w' → OneRecordEach w')
    ↔ Run.Along step CreatesFirst World.initial es
  := by
  constructor
  · intro hone
    apply along_of_nodup_users h
    have htraced := traced_of_run h
    apply (List.nodup_map_iff_inj_on (List.Nodup.of_map _ htraced.recorded.nodup)).mpr
    intro a ha b hb hab
    obtain ⟨d, hd⟩ := htraced.underway a ha
    obtain ⟨f, hf⟩ := htraced.underway b hb
    -- both records arrive
    obtain ⟨n, w₁, h₁, hd₁, -⟩ := exists_exec_arrive program w d
    obtain ⟨m, w₂, h₂, hf₂, hothers⟩ := exists_exec_arrive program w₁ f
    have hs : run w (List.replicate n (.arrive d) ++ List.replicate m (.arrive f)) = some w₂ :=
      Run.exec_append h₁ h₂
    have hd₂ : (w₂.device d).client.unarrived = [] := by
      by_cases hdf : d = f
      · rwa [hdf]
      · rw [hothers d hdf, hd₁]
    have hw₂ := recorded_of_run (Run.exec_append h hs)
    rw [creations, Run.log_append h] at hw₂
    obtain ⟨da, u, hda, hu, hua⟩ := creation_of_isSome hw₂ hw₂.versions.server
      (List.mem_append_left _ ha)
      (stored_of_underway (underway_of_run htraced.recorded hs hd) hd₂)
    obtain ⟨db, v, hdb, hv, hvb⟩ := creation_of_isSome hw₂ hw₂.versions.server
      (List.mem_append_left _ hb)
      (stored_of_underway (underway_of_run htraced.recorded hs hf) hf₂)
    have huv : u.userID = v.userID := by
      rw [← hua, ← hvb] at hab
      apply hab
    apply List.inj_on_of_nodup_map htraced.recorded.nodup ha hb
    apply hone _ w₂ _ hs _ _ da db u v hda hdb hu hv huv
    intro e he
    rcases List.mem_append.mp he with he | he
    · rw [List.eq_of_mem_replicate he]
      rfl
    · rw [List.eq_of_mem_replicate he]
      rfl
  · intro halong es' w' harrivals hs
    apply oneRecordEach_of_nodup (recorded_of_run (Run.exec_append h hs))
    apply nodup_users_of_along (Run.exec_append h hs)
    apply (Run.along_append h).mpr ⟨halong, _⟩
    apply Run.along_of_forall
    intro w e he
    apply createsFirst_of_isArrival (harrivals e he)

end

/-- A second device logs in to an account after its record has arrived. -/
theorem oneRecordEach_iff_arrived :
  ∃ w ∈ run World.initial (launches true ++ loads true (record "a" (by decide))
      ++ registers true "u" ++ loads true (record "t" (by decide)) ++ [.arrive true]
      ++ launches false ++ loads false (record "b" (by decide)) ++ logsIn false "u"
      ++ loads false (record "z" (by decide))), OneRecordEach w
  := by
  have hrun : ∃ w, run World.initial (launches true ++ loads true (record "a" (by decide))
      ++ registers true "u" ++ loads true (record "t" (by decide)) ++ [.arrive true]
      ++ launches false ++ loads false (record "b" (by decide)) ++ logsIn false "u"
      ++ loads false (record "z" (by decide))) = some w := by
    apply Option.isSome_iff_exists.mp
    decide +kernel
  obtain ⟨w, hw⟩ := hrun
  use w, hw
  refine (oneRecordEach_iff hw).mpr ?_ [] w (by simp) rfl
  decide +kernel

/-- Two devices sign in to an account, and each finds no record of it. -/
theorem not_oneRecordEach :
  ¬ ∀ (es : List (Event Bool)) w, run World.initial es = some w → OneRecordEach w
  := by
  intro h
  have hrun : ∃ w ∈ run World.initial (launches true ++ loads true (record "a" (by decide))
      ++ launches false ++ loads false (record "b" (by decide)) ++ registers true "u"
      ++ logsIn false "u" ++ loads true (record "t" (by decide))
      ++ loads false (record "z" (by decide)) ++ [.arrive true, .arrive false]),
      ∃ dt ∈ w.server.lookup "t", ∃ dz ∈ w.server.lookup "z",
        ∃ u ∈ (UserInfo.decode dt).toOption, ∃ v ∈ (UserInfo.decode dz).toOption,
          u.userID = v.userID := by
    decide +kernel
  obtain ⟨w, hw, dt, ht, dz, hz, u, hu, v, hv, huv⟩ := hrun
  have htz : "t" = "z" := by
    apply h _ w hw "t" "z" dt dz u v ht hz _ _ huv
    · apply Document.toOption_eq_some.mp hu
    · apply Document.toOption_eq_some.mp hv
  simp at htz

end Users

import TaskFirestoreApp.Groups.Registers

/-!
# What a device knows

A device that knows of a group, from its `groupInfo` or an answer that has not been
delivered, sees the group, as long as the group is not deleted.
-/

namespace Groups

open Backend

variable {D : Type}

/-- A device that knows of the group `t`, from its `groupInfo` or an answer, sees it. -/
structure Visible (t : String) (w : World D) : Prop where
  written : ∀ d, ∀ x ∈ (w.device d).client.unarrived, x.id = t → x.doc.isSome
  groupInfo : ∀ d, ∀ g ∈ (w.device d).app.groupInfo, g.taskId = t → ((w.view d).lookup t).isSome
  results : ∀ d, ∀ r ∈ (w.device d).client.results, (r.2.lookup t).isSome →
    ((w.view d).lookup t).isSome

theorem visible_initial (t : String) :
  Visible t (World.initial : World D)
  where
  written d x hx := by simp [World.initial] at hx
  groupInfo d g hg := by simp [World.initial, App.stopped] at hg
  results d r hr := by simp [World.initial] at hr

section Step

variable [DecidableEq D] {t : String} {w w' : World D} {e : Event D} {d : D}

/-- A group that a device sees stays visible. -/
theorem view_isSome_step (hkeyed : Keyed w) (h : Visible t w) (hspares : Spares t w e)
    (hs : step w e = some w') (hview : ((w.view d).lookup t).isSome) :
  ((w'.view d).lookup t).isSome
  := by
  have hreg : ∀ w : World D, (w.view d).lookup t = (w.register (fun doc => doc) t).view d :=
    fun w => (register_view (fun doc => doc) t).symm
  rw [hreg] at hview ⊢
  rcases register_cases (fun doc => doc) t hkeyed hs with heq | ⟨f, -, heq⟩
    | ⟨f, g, message, now, -, -, -, heq⟩ | ⟨f, app, cs, screen, g, -, -, -, heq⟩
    | ⟨f, row, g, rfl, hg, hid, -⟩
  · rwa [heq]
  · rw [heq]
    rcases (w.register (fun doc => doc) t).arrive_view f d with hsame | harrived
    · rwa [hsame]
    · obtain ⟨x, hx, hdoc⟩ := List.mem_map.mp harrived
      obtain ⟨hx, hid⟩ := List.mem_filter.mp hx
      rw [← hdoc]
      apply h.written f x hx (by simpa using hid)
  · rw [heq]
    rcases eq_or_ne d f with rfl | hd
    · simp
    · rwa [Register.issue_view_of_ne hd]
  · rw [heq]
    rcases eq_or_ne d f with rfl | hd
    · simp
    · rwa [Register.issue_view_of_ne hd]
  · exact absurd hid (hspares (f, row) rfl g hg)

/-- A handler leaves in `groupInfo` entries that its device sees afterwards. -/
theorem visible_groupInfo_step (hkeyed : Keyed w) (h : Visible t w) (hspares : Spares t w e)
    (hs : step w e = some w') {g : GroupInfo} (hg : g ∈ (w'.device d).app.groupInfo)
    (hid : g.taskId = t) :
  ((w'.view d).lookup t).isSome
  := by
  have hold : ∀ g ∈ (w.device d).app.groupInfo, g.taskId = t → ((w'.view d).lookup t).isSome :=
    fun g hg hid => view_isSome_step hkeyed h hspares hs (h.groupInfo d g hg hid)
  rcases app_step hs d with happ | happ | ⟨c, cs, hh, hsettle⟩
  · apply hold g (happ ▸ hg) hid
  · simp [happ, program, App.stopped] at hg
  · apply groupInfo_of_handler hh hold _ (fun g _ _ hs' => hold g hs'.mem) _ g hg hid
    · intro r hr g hg hid
      obtain ⟨-, -, hlookup⟩ := keyed_of_mem_loaded (hkeyed.versions.results d r hr) hg
      apply view_isSome_step hkeyed h hspares hs (h.results d r hr (hid ▸ hlookup))
    · intro screen g hs' hid
      rw [← register_view (fun doc => doc) t,
        register_settle (fun doc => doc) t (handler_client hh).1 hsettle, hs'.written]
      simp [hid]

theorem visible_results_step (hkeyed : Keyed w) (h : Visible t w) (hspares : Spares t w e)
    (hs : step w e = some w')
    {r : Query × Collection String Document} (hr : r ∈ (w'.device d).client.results)
    (hlookup : (r.2.lookup t).isSome) :
  ((w'.view d).lookup t).isSome
  := by
  apply view_isSome_step hkeyed h hspares hs
  rcases mem_results_step hs hr with hr | ⟨-, hr⟩
  · apply h.results d r hr hlookup
  · rwa [← hr]

theorem visible_written_step (hkeyed : Keyed w) (h : Visible t w) (hspares : Spares t w e)
    (hs : step w e = some w')
    {x : Write String Document} (hx : x ∈ (w'.device d).client.unarrived) (hid : x.id = t) :
  x.doc.isSome
  := by
  rcases mem_unarrived_step hs hx with hx | ⟨c, app, cs, hh, -, hx⟩
  · apply h.written d x hx hid
  · rcases mem_written hh (hkeyed.segmented d) hx with ⟨g, message, now, -, rfl⟩
      | ⟨screen, g, -, rfl⟩ | ⟨row, g, hs', rfl⟩
    · rfl
    · rfl
    · obtain rfl := hs'.event
      exact absurd hid (hspares (d, row) rfl g hs'.entry)

theorem visible_step (hkeyed : Keyed w) (h : Visible t w) (hspares : Spares t w e)
    (hs : step w e = some w') :
  Visible t w'
  where
  written _ _ hx hid := visible_written_step hkeyed h hspares hs hx hid
  groupInfo _ _ hg hid := visible_groupInfo_step hkeyed h hspares hs hg hid
  results _ _ hr hlookup := visible_results_step hkeyed h hspares hs hr hlookup

end Step

end Groups

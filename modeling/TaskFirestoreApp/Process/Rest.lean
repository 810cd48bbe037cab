import TaskFirestoreApp.Library.Together
import TaskFirestoreApp.Process.Parts
import TaskFirestoreApp.Groups.Settling
import TaskFirestoreApp.Users.Rest

/-!
# The whole app comes to rest

The chats listen to Groups, and the load of a login screen writes to Users: neither keeps the
other busy, so the devices come to rest when they are left to themselves, with the groups and
the users at rest.
-/

namespace Process

open Backend

theorem embeds_ofGroups :
  Command.Embeds ofGroups Path.groups Query.groups
  where
  drawn x := by
    cases x with
    | draw id | get q | listen id chat => rfl
    | write x => cases x <;> rfl
  written x := by
    cases x with
    | draw id | get q | listen id chat => rfl
    | write x => cases x <;> rfl
  requested x := by
    cases x with
    | draw id | get q | listen id chat => rfl
    | write x => cases x <;> rfl
  registered x hx := by
    cases x with
    | draw id | get q => rfl
    | write x => cases x <;> rfl
    | listen id chat => cases hx

theorem embeds_ofUsers :
  Command.Embeds ofUsers Path.users Query.users
  where
  drawn x := by
    cases x with
    | draw id | get q => rfl
    | write x => cases x <;> rfl
    | listen id tag => exact tag.elim
  written x := by
    cases x with
    | draw id | get q => rfl
    | write x => cases x <;> rfl
    | listen id tag => exact tag.elim
  requested x := by
    cases x with
    | draw id | get q => rfl
    | write x => cases x <;> rfl
    | listen id tag => exact tag.elim
  registered x hx := by
    cases x with
    | draw id | get q => rfl
    | write x => cases x <;> rfl
    | listen id tag => exact tag.elim

theorem responsive_program :
  program.Responsive 1
  where
  callback {q c x app app' cs} h := by
    cases q with
    | groups q =>
        obtain ⟨⟨g, gs⟩, hg, heff⟩ := Option.map_eq_some_iff.mp h
        obtain ⟨-, rfl⟩ := Prod.mk.inj heff
        have hanswers := embeds_ofGroups.answers
          (Groups.responsive_program.callback (x := ()) hg)
        exact ⟨hanswers.written.trans zero_le_one, hanswers.requested, hanswers.registered⟩
    | users q =>
        obtain ⟨⟨u, us⟩, hu, heff⟩ := Option.map_eq_some_iff.mp h
        obtain ⟨-, rfl⟩ := Prod.mk.inj heff
        exact embeds_ofUsers.answers (Users.responsive_program.callback hu)
  failed {q app app' cs} h := by
    cases q with
    | groups q =>
        obtain ⟨⟨g, gs⟩, hg, heff⟩ := Option.map_eq_some_iff.mp h
        obtain ⟨-, rfl⟩ := Prod.mk.inj heff
        obtain ⟨hfailed, hdrawn⟩ := Groups.responsive_program.failed hg
        have hanswers := embeds_ofGroups.answers hfailed
        refine ⟨⟨hanswers.written.trans zero_le_one, hanswers.requested, hanswers.registered⟩, ?_⟩
        rw [embeds_ofGroups.filterMap_drawn, hdrawn, List.map_nil]
    | users q =>
        obtain ⟨⟨u, us⟩, hu, heff⟩ := Option.map_eq_some_iff.mp h
        obtain ⟨-, rfl⟩ := Prod.mk.inj heff
        obtain ⟨hfailed, hdrawn⟩ := Users.responsive_program.failed hu
        use embeds_ofUsers.answers hfailed
        rw [embeds_ofUsers.filterMap_drawn, hdrawn, List.map_nil]
  listener {chat data app app' cs} h := by
    have h' : (Groups.listener chat data app.groups).map app.withGroups = some (app', cs) := h
    obtain ⟨⟨g, gs⟩, hg, heff⟩ := Option.map_eq_some_iff.mp h'
    obtain ⟨-, rfl⟩ := Prod.mk.inj heff
    obtain ⟨hwritten, hrequested, hregistered, hdrawn⟩ := Groups.responsive_program.listener hg
    refine ⟨?_, ?_, embeds_ofGroups.filterMap_registered hregistered, ?_⟩
    · rw [← List.length_eq_zero_iff, embeds_ofGroups.length_written, hwritten, List.length_nil]
    · rw [embeds_ofGroups.filterMap_requested, List.length_map]
      exact hrequested
    · rw [embeds_ofGroups.filterMap_drawn, hdrawn, List.map_nil]
  input q c app ids := by
    cases q with
    | groups q =>
        obtain ⟨x, hx⟩ := Groups.responsive_program.input q (Collection.restrict Path.inGroups c)
          app.groups (ids.filterMap Path.inGroups)
        use Users.record "a" (by decide)
        intro app' cs h i hi hissued
        obtain ⟨⟨g, gs⟩, hg, heff⟩ := Option.map_eq_some_iff.mp h
        obtain ⟨-, rfl⟩ := Prod.mk.inj heff
        rw [embeds_ofGroups.filterMap_drawn] at hi
        obtain ⟨j, hj, rfl⟩ := List.mem_map.mp hi
        have hpath : Path.inGroups (.groups j) = some j := rfl
        apply hx g gs hg j hj (List.mem_filterMap.mpr ⟨_, hissued, hpath⟩)
    | users q =>
        obtain ⟨x, hx⟩ := Users.responsive_program.input q (Collection.restrict Path.inUsers c)
          app.users (ids.filterMap Path.inUsers)
        use x
        intro app' cs h i hi hissued
        obtain ⟨⟨u, us⟩, hu, heff⟩ := Option.map_eq_some_iff.mp h
        obtain ⟨-, rfl⟩ := Prod.mk.inj heff
        rw [embeds_ofUsers.filterMap_drawn] at hi
        obtain ⟨j, hj, rfl⟩ := List.mem_map.mp hi
        have hpath : Path.inUsers (.users j) = some j := rfl
        apply hx u us hu j hj (List.mem_filterMap.mpr ⟨_, hissued, hpath⟩)

/-- The groups and the users are all of the app. -/
theorem cover_parts :
  Part.Cover groupsPart usersPart
  where
  id path := by
    cases path with
    | groups id => exact .inl rfl
    | users id => exact .inr rfl
  query q := by
    cases q with
    | groups q => exact .inl rfl
    | users q => exact .inr rfl

variable {D : Type} [DecidableEq D] {w : World D}

/-- From every state that the whole app can reach, whatever was pressed before, the devices come
to rest when they are left to themselves, and they are at rest when the groups and the users
are. -/
theorem app_settles {es : List (Event D)} (h : run World.initial es = some w) :
  Settles program w ∧ (w.Quiet ↔ (groupsPart.world w).Quiet ∧ (usersPart.world w).Quiet)
  := by
  have hconfined : Confined ∅ (World.initial : World D) := fun _ _ => rfl
  obtain ⟨S, hS⟩ := exists_confined hconfined h
  have hgroups := groupsPart.fitting_run (fitting_initial groupsPart) h
  have husers := usersPart.fitting_run (fitting_initial usersPart) h
  constructor
  · apply cover_parts.settles responsive_program Groups.responsive_program (.inl rfl)
      Users.responsive_program (.inr inferInstance) hgroups husers hS
  · apply cover_parts.quiet_iff hgroups husers

/-- A user registers and makes a group, and both writes are left to arrive. -/
theorem app_settles_registered :
  ∃ w, run (World.initial : World Unit) (launched ()
      ++ registers () "u" (Users.record "t" (by decide)) ++ makesGroup () "g" "t" 1) = some w
    ∧ ¬ w.Quiet ∧ Settles program w
  := by
  have hrun : ∃ w, run (World.initial : World Unit) (launched ()
      ++ registers () "u" (Users.record "t" (by decide)) ++ makesGroup () "g" "t" 1) = some w
      ∧ (w.device ()).client.unarrived.length = 2 := by
    decide +kernel
  obtain ⟨w, hw, hunarrived⟩ := hrun
  use w, hw
  constructor
  · intro hquiet
    rw [(hquiet ()).1] at hunarrived
    cases hunarrived
  · apply (app_settles hw).1

end Process

import TaskFirestoreApp.Groups.Duplicates
import TaskFirestoreApp.Users.Duplicates

/-!
# The stores of a device

The groups and the users of the app share nothing but the process and the screens, so a run
of the whole app is a run of its groups and a run of its users. Neither store ever holds a
record twice exactly when every load that appends is delivered to a store that holds none of
the records it found.
-/

variable {D : Type} [DecidableEq D]

/-- Throughout a run of the groups and a run of the users, `groupInfo` and `userLists` hold no
two records with the same taskId, exactly when every load that appends to one of them finds
records that are not in it when the load is delivered. -/
theorem stores_noDuplicates_iff {gs : List (Groups.Event D)} {us : List (Users.Event D)}
    {wg : Groups.World D} {wu : Users.World D}
    (hg : Groups.run Groups.World.initial gs = some wg)
    (hu : Users.run Users.World.initial us = some wu) :
  Run.Throughout Groups.step Groups.NoDuplicates Groups.World.initial gs
      ∧ Run.Throughout Users.step Users.NoDuplicates Users.World.initial us
    ↔ Run.Along Groups.step Groups.LoadsNew Groups.World.initial gs
      ∧ Run.Along Users.step Users.LoadsNew Users.World.initial us
  := and_congr (Groups.noDuplicates_iff hg) (Users.noDuplicates_iff hu)

/-- The list is loaded after Home was, and a user registers and is renamed. -/
theorem stores_noDuplicates_loaded :
  Run.Throughout Groups.step Groups.NoDuplicates (Groups.World.initial : Groups.World Unit)
      (Groups.started () ++ Groups.makesGroup () "g" "t" 1 ++ [.arrive ()] ++ Groups.opensList ()
        ++ Groups.opensChat () 0 ++ [.act () .back, .answer () 0, .deliver () 0 ()])
    ∧ Run.Throughout Users.step Users.NoDuplicates (Users.World.initial : Users.World Unit)
      (Users.launches () ++ Users.loads () (Users.record "a" (by decide))
        ++ Users.registers () "u" ++ Users.loads () (Users.record "t" (by decide))
        ++ [.act () (.backToSaveBtn "n"), .arrive (), .arrive ()])
  := by
  have hg : ∃ w, Groups.run Groups.World.initial
      (Groups.started () ++ Groups.makesGroup () "g" "t" 1 ++ [.arrive ()] ++ Groups.opensList ()
        ++ Groups.opensChat () 0 ++ [.act () .back, .answer () 0, .deliver () 0 ()]) = some w := by
    apply Option.isSome_iff_exists.mp
    decide +kernel
  have hu : ∃ w, Users.run Users.World.initial
      (Users.launches () ++ Users.loads () (Users.record "a" (by decide))
        ++ Users.registers () "u" ++ Users.loads () (Users.record "t" (by decide))
        ++ [.act () (.backToSaveBtn "n"), .arrive (), .arrive ()]) = some w := by
    apply Option.isSome_iff_exists.mp
    decide +kernel
  obtain ⟨wg, hg⟩ := hg
  obtain ⟨wu, hu⟩ := hu
  apply (stores_noDuplicates_iff hg hu).mpr
  decide +kernel

/-- Home's load is delivered after the list was cleared for its own load, and again Home's
load after the user has logged in. -/
theorem not_stores_noDuplicates :
  (∃ w ∈ Groups.run (Groups.World.initial : Groups.World Unit)
      (Groups.started () ++ Groups.makesGroup () "g" "t" 1
        ++ [.arrive (), .kill (), .act () (.launch 2), .act () (.selectTab .talk), .answer () 0,
          .answer () 0, .deliver () 0 (), .deliver () 0 ()]), ¬ Groups.NoDuplicates w)
    ∧ ∃ w ∈ Users.run (Users.World.initial : Users.World Bool)
      (Users.launches true ++ Users.loads true (Users.record "a" (by decide))
        ++ Users.registers true "u" ++ Users.loads true (Users.record "t" (by decide))
        ++ [.arrive true] ++ Users.launches false ++ Users.logsIn false "u"
        ++ Users.loads false (Users.record "b" (by decide))
        ++ Users.loads false (Users.record "c" (by decide))), ¬ Users.NoDuplicates w
  := by
  have hg : ∃ w ∈ Groups.run (Groups.World.initial : Groups.World Unit)
      (Groups.started () ++ Groups.makesGroup () "g" "t" 1
        ++ [.arrive (), .kill (), .act () (.launch 2), .act () (.selectTab .talk), .answer () 0,
          .answer () 0, .deliver () 0 (), .deliver () 0 ()]),
      ¬ ((w.device ()).app.groupInfo.map GroupInfo.taskId).Nodup := by
    decide +kernel
  have hu : ∃ w ∈ Users.run (Users.World.initial : Users.World Bool)
      (Users.launches true ++ Users.loads true (Users.record "a" (by decide))
        ++ Users.registers true "u" ++ Users.loads true (Users.record "t" (by decide))
        ++ [.arrive true] ++ Users.launches false ++ Users.logsIn false "u"
        ++ Users.loads false (Users.record "b" (by decide))
        ++ Users.loads false (Users.record "c" (by decide))),
      ¬ ((w.device false).app.userLists.map UserInfo.taskId).Nodup := by
    decide +kernel
  obtain ⟨wg, hwg, hdupg⟩ := hg
  obtain ⟨wu, hwu, hdupu⟩ := hu
  exact ⟨⟨wg, hwg, fun h => hdupg (h ())⟩, wu, hwu, fun h => hdupu (h false)⟩

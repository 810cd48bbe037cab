import TaskFirestoreApp.Groups.Keys

/-!
# The identity of a group

A group is created once, under a new id. Every version of a document of Groups, wherever it
is, and every entry of `groupInfo` has the taskId, the name, the members and the time of
creation of a group that was created.
-/

/-- What never changes in a group. -/
structure Identity where
  taskId : String
  groupName : String
  groupMemberNames : List String
  createdAt : Timestamp
  deriving DecidableEq

def GroupInfo.identity (g : GroupInfo) : Identity where
  taskId := g.taskId
  groupName := g.groupName
  groupMemberNames := g.groupMemberNames
  createdAt := g.createdAt

namespace Groups

open Backend

variable {D : Type}

/-- The identities of the groups that the writes among the commands set. -/
def identitiesWritten (cs : List Command) : List Identity :=
  (cs.filterMap Backend.Command.written).filterMap fun x =>
    x.doc.bind fun doc => (GroupInfo.decode doc).toOption.map GroupInfo.identity

/-- The identities an event creates: those in the writes of the create button. -/
def created (w : World D) : Event D → List Identity
  | .act d (.makeGroupBtn groupName taskId createdAt updatedAt) =>
      (act (.makeGroupBtn groupName taskId createdAt updatedAt) (w.device d).app).elim []
        fun eff => identitiesWritten eff.2
  | _ => []

/-- A document is a group with its id for taskId, and has the identity of a group that was
created. -/
def IdentityDocument (l : List Identity) (id : String) (doc : Document) : Prop :=
  ∃ g, GroupInfo.decode doc = .ok g ∧ g.taskId = id ∧ g.identity ∈ l

/-- The entries of `groupInfo` have the identities of groups that were created. -/
def IdentityApp (l : List Identity) (app : App) : Prop :=
  ∀ g ∈ app.groupInfo, g.identity ∈ l

/-- Every group has one of the identities `l`, each of which has an id of its own. -/
structure Identified (l : List Identity) (w : World D) : Prop where
  versions : Everywhere (IdentityDocument l) (IdentityApp l) w
  issued : ∀ i ∈ l.map Identity.taskId, i ∈ w.issued
  nodup : (l.map Identity.taskId).Nodup

theorem identityDocument_encode {l : List Identity} {g : GroupInfo} (h : g.identity ∈ l) :
  IdentityDocument l g.taskId g.encode
  := ⟨g, GroupInfo.decode_encode g, rfl, h⟩

/-- A group that a read finds was created. -/
theorem identity_of_mem_loaded {l : List Identity} {c : Collection String Document}
    (hc : c.All (IdentityDocument l)) {g : GroupInfo} (hg : g ∈ loaded c) :
  g.identity ∈ l
  := by
  obtain ⟨i, doc, hi, hdec⟩ := mem_loaded.mp hg
  obtain ⟨g', hdec', -, hl⟩ := hc i doc hi
  obtain rfl : g' = g := by simpa [hdec'] using hdec
  apply hl

section Step

variable [DecidableEq D] {l : List Identity} {w w' : World D} {e : Event D} {d : D}
  {app : App} {cs : List Command}

omit [DecidableEq D] in
theorem identified_initial :
  Identified [] (World.initial : World D)
  where
  versions := by
    apply Everywhere.of_empty rfl (fun _ => rfl)
    intro d g hg
    cases hg
  issued i hi := by cases hi
  nodup := List.nodup_nil

omit [DecidableEq D] in
theorem created_of_creates {c : Client String Document Query Chat} {screen : MakeScreen}
    {g : GroupInfo} (hh : handler program w e = some (d, c, some (app, cs)))
    (h : Creates w d e app cs screen g) :
  created w e = [g.identity]
  := by
  obtain ⟨groupName, createdAt, updatedAt, rfl, -, -⟩ := h.event
  obtain ⟨-, -, -, hact⟩ := handler_act.mp hh
  have hact' : act (.makeGroupBtn groupName g.taskId createdAt updatedAt) (w.device d).app
      = some (app, cs) := hact.symm
  rw [created, hact', h.commands]
  rfl

/-- A step creates nothing, or it runs a handler that creates one group. -/
theorem created_cases (hs : step w e = some w') :
  created w e = [] ∨ ∃ d c app cs screen g, handler program w e = some (d, c, some (app, cs))
    ∧ settle program w d c (some (app, cs)) = some w' ∧ Creates w d e app cs screen g
    ∧ created w e = [g.identity]
  := by
  by_cases hnil : created w e = []
  · left
    apply hnil
  · right
    rcases step_cases hs with ⟨d, rfl, -⟩ | ⟨d, i, rfl, -⟩ | ⟨d, c, r, hh, hsettle⟩
    · exact absurd rfl hnil
    · exact absurd rfl hnil
    · unfold created at hnil
      split at hnil
      · next f groupName taskId createdAt updatedAt =>
          obtain ⟨henabled, rfl, -, hact⟩ := handler_act.mp hh
          have hact' : r = act (.makeGroupBtn groupName taskId createdAt updatedAt)
              (w.device f).app := hact
          rw [← hact'] at hnil
          cases r with
          | none => exact absurd rfl hnil
          | some eff =>
              obtain ⟨app, cs⟩ := eff
              rcases act_cases henabled hact'.symm with
                ⟨_, _, _, hs⟩ | ⟨screen, g, hs⟩ | ⟨_, _, hs⟩ | hs
              · cases hs.event
              · exact ⟨f, c, app, cs, screen, g, hh, hsettle, hs, created_of_creates hh hs⟩
              · cases hs.event
              · simp [identitiesWritten, hs.written] at hnil
      · exact absurd rfl hnil

omit [DecidableEq D] in
/-- Handlers write and keep groups that were created, or that they create. -/
theorem respects_identified (hkeyed : Keyed w) (h : Identified l w)
    {c : Client String Document Query Chat}
    {eff : Effect} (hh : handler program w e = some (d, c, some eff)) :
  eff.Respects (IdentityDocument (l ++ created w e)) (IdentityApp (l ++ created w e))
  := by
  obtain ⟨app, cs⟩ := eff
  have hold : ∀ g ∈ (w.device d).app.groupInfo, g.identity ∈ l ++ created w e :=
    fun g hg => List.mem_append_left _ (h.versions.app d g hg)
  have hsend : ∀ g message now, Sends w d e app cs g message now →
      (g.send message now).identity ∈ l ++ created w e :=
    fun g message now hs => hold g hs.mem
  have hcreate : ∀ screen g, Creates w d e app cs screen g → g.identity ∈ l ++ created w e := by
    intro screen g hs
    simp [created_of_creates hh hs]
  constructor
  · apply groupInfo_of_handler hh hold _ hsend hcreate
    intro r hr g hg
    apply List.mem_append_left _ (identity_of_mem_loaded (h.versions.results d r hr) hg)
  · apply written_of_handler hh (hkeyed.segmented d)
    · intro g message now hs
      apply identityDocument_encode (hsend g message now hs)
    · intro screen g hs
      apply identityDocument_encode (hcreate screen g hs)

/-- A step keeps the identities, and adds what it creates. -/
theorem identified_step (hkeyed : Keyed w) (h : Identified l w) (hs : step w e = some w') :
  Identified (l ++ created w e) w'
  := by
  have hversions : Everywhere (IdentityDocument (l ++ created w e)) (IdentityApp (l ++ created w e))
      w' := by
    apply h.versions.step _ _ _ _ hs
    · rintro i doc ⟨g, hdec, hid, hg⟩
      use g, hdec, hid, List.mem_append_left _ hg
    · intro a ha g hg
      apply List.mem_append_left _ (ha g hg)
    · intro a g hg
      cases hg
    · intro d c eff hh _
      apply respects_identified hkeyed h hh
  rcases created_cases hs with hnil | ⟨d, c, app, cs, screen, g, -, hsettle, hcreates, hg⟩
  · use hversions
    · rw [hnil, List.append_nil]
      exact fun i hi => step_issued hs (h.issued i hi)
    · rw [hnil, List.append_nil]
      apply h.nodup
  · have hdrawn : (created w e).map Identity.taskId = cs.filterMap Backend.Command.drawn := by
      rw [hg, hcreates.drawn]
      rfl
    obtain ⟨hnodup, hissued⟩ := nodup_append_drawn h.nodup h.issued hsettle
      (by simp [hcreates.drawn])
    rw [← hdrawn, ← List.map_append] at hnodup hissued
    exact ⟨hversions, hissued, hnodup⟩

/-- The identities of the groups created in a run of the events from `w`. -/
abbrev creations (w : World D) (es : List (Event D)) : List Identity :=
  Run.log step created w es

/-- In every run from the start, whatever the devices do and in whatever order writes arrive
and reads are answered, groups are created under ids of their own, and every version of a
group, on the server, in a write that has not arrived, in an answer that has not been
delivered, and in the `groupInfo` of a device, has the name, the members and the time of
creation that its document was first written with. -/
theorem identities_kept {es : List (Event D)} (h : run World.initial es = some w) :
  ((creations World.initial es).map Identity.taskId).Nodup
    ∧ Everywhere (IdentityDocument (creations World.initial es))
      (IdentityApp (creations World.initial es)) w
  := by
  have key : Keyed w ∧ Identified (creations World.initial es) w := by
    apply Run.log_of_step (P := fun l w => Keyed w ∧ Identified l w) _
      ⟨keyed_initial, identified_initial⟩ h
    intro l w e w' hw hs
    exact ⟨keyed_step hw.1 hs, identified_step hw.1 hw.2 hs⟩
  exact ⟨key.2.nodup, key.2.versions⟩

end Step

/-- A device creates two groups, and sends to the second one from the chat that it opened on
the first one. -/
def twoGroups : List (Event Unit) :=
  started () ++ makesGroup () "g" "t" 1 ++ opensList () ++ opensChat () 0
    ++ [.act () (.commitBtn "a" 2), .act () (.selectTab .home)] ++ makesGroup () "h" "u" 3
    ++ [.act () (.selectTab .talk), .snapshot () 0, .answer () 0, .deliver () 0 (),
      .act () .viewDidAppear, .act () (.commitBtn "b" 4)]

theorem identities_kept_twoGroups :
  ∃ w, run World.initial twoGroups = some w
    ∧ Everywhere (IdentityDocument [⟨"t", "g", ["お父さん"], 1⟩, ⟨"u", "h", ["お父さん"], 3⟩])
      (IdentityApp [⟨"t", "g", ["お父さん"], 1⟩, ⟨"u", "h", ["お父さん"], 3⟩]) w
  := by
  have hrun : (run World.initial twoGroups).isSome ∧ creations World.initial twoGroups
      = [⟨"t", "g", ["お父さん"], 1⟩, ⟨"u", "h", ["お父さん"], 3⟩] := by
    decide +kernel
  obtain ⟨w, hw⟩ := Option.isSome_iff_exists.mp hrun.1
  use w, hw
  rw [← hrun.2]
  apply (identities_kept hw).2

end Groups

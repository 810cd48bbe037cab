import TaskFirestoreApp.Groups.Effects
import TaskFirestoreApp.Library.Everywhere

/-!
# Documents and their ids

Every version of a document of Groups is the encoding of a group whose taskId is the id of
the document, one segment of a path that was handed out before. A group that is created
therefore has an id that occurs nowhere, and every entry of `groupInfo` names its document.
-/

namespace Groups

open Backend

variable {D : Type}

/-- A document is a group with its id for taskId, and the id has been handed out. -/
def KeyedDocument (issued : List String) (id : String) (doc : Document) : Prop :=
  id ∈ issued ∧ IsSegment id ∧ ∃ g, GroupInfo.decode doc = .ok g ∧ g.taskId = id

/-- The taskIds in `groupInfo` have been handed out. -/
def KeyedApp (issued : List String) (app : App) : Prop :=
  ∀ g ∈ app.groupInfo, g.taskId ∈ issued ∧ IsSegment g.taskId

structure Keyed (w : World D) : Prop where
  versions : Everywhere (KeyedDocument w.issued) (KeyedApp w.issued) w
  writes : ∀ d, ∀ x ∈ (w.device d).client.unarrived, x.id ∈ w.issued

theorem Keyed.segmented {w : World D} (h : Keyed w) (d : D) :
  Segmented (w.device d).app
  := fun g hg => (h.versions.app d g hg).2

/-- An id that was not handed out occurs nowhere. -/
structure Fresh (t : String) (w : World D) : Prop where
  server : w.server.lookup t = none
  unarrived : ∀ d, ∀ x ∈ (w.device d).client.unarrived, x.id ≠ t
  groupInfo : ∀ d, ∀ g ∈ (w.device d).app.groupInfo, g.taskId ≠ t
  results : ∀ d, ∀ r ∈ (w.device d).client.results, r.2.lookup t = none

theorem Keyed.fresh {w : World D} (h : Keyed w) {t : String} (ht : t ∉ w.issued) :
  Fresh t w
  where
  server := by
    apply Option.eq_none_iff_forall_ne_some.mpr
    intro doc hdoc
    apply ht (h.versions.server t doc hdoc).1
  unarrived d x hx hid := ht (hid ▸ h.writes d x hx)
  groupInfo d g hg hid := ht (hid ▸ (h.versions.app d g hg).1)
  results d r hr := by
    apply Option.eq_none_iff_forall_ne_some.mpr
    intro doc hdoc
    apply ht (h.versions.results d r hr t doc hdoc).1

variable [DecidableEq D] {w w' : World D} {e : Event D} {d : D}

omit [DecidableEq D] in
theorem keyed_initial :
  Keyed (World.initial : World D)
  where
  versions := by
    apply Everywhere.of_empty rfl (fun _ => rfl)
    intro d g hg
    cases hg
  writes d x hx := by simp [World.initial] at hx

omit [DecidableEq D] in
theorem keyed_of_mem_loaded {issued : List String} {c : Collection String Document}
    (hc : c.All (KeyedDocument issued)) {g : GroupInfo} (hg : g ∈ loaded c) :
  g.taskId ∈ issued ∧ IsSegment g.taskId ∧ (c.lookup g.taskId).isSome
  := by
  obtain ⟨i, doc, hi, hdec⟩ := mem_loaded.mp hg
  obtain ⟨hissued, hsegment, g', hdec', rfl⟩ := hc i doc hi
  obtain rfl : g' = g := by simpa [hdec'] using hdec
  exact ⟨hissued, hsegment, by simp [hi]⟩

/-- A handler draws ids that were not handed out, and writes documents under ids that
were, or that it draws. -/
theorem keyed_versions_step (h : Keyed w) (hs : step w e = some w') :
  Everywhere (KeyedDocument w'.issued) (KeyedApp w'.issued) w'
  := by
  have hissued := step_issued hs
  have hdoc : ∀ id doc, KeyedDocument w.issued id doc → KeyedDocument w'.issued id doc :=
    fun id doc hd => ⟨hissued hd.1, hd.2⟩
  have happ : ∀ app, KeyedApp w.issued app → KeyedApp w'.issued app :=
    fun app ha g hg => ⟨hissued (ha g hg).1, (ha g hg).2⟩
  apply h.versions.step hdoc happ _ _ hs
  · intro a g hg
    cases hg
  · rintro d c ⟨app, cs⟩ hh hsettle
    have hold := happ _ (h.versions.app d)
    have hcreate : ∀ screen g, Creates w d e app cs screen g →
        g.taskId ∈ w'.issued ∧ IsSegment g.taskId := by
      intro screen g hs
      exact ⟨drawn_issued hsettle (by simp [hs.drawn]), hs.taskId⟩
    constructor
    · apply groupInfo_of_handler hh hold _ (fun g _ _ hs => hold g hs.mem) hcreate
      intro r hr g hg
      obtain ⟨hg₁, hg₂, -⟩ := keyed_of_mem_loaded (h.versions.results d r hr) hg
      exact ⟨hissued hg₁, hg₂⟩
    · apply written_of_handler hh (h.segmented d)
      · intro g message now hs
        obtain ⟨hg₁, hg₂⟩ := hold g hs.mem
        exact ⟨hg₁, hg₂, _, GroupInfo.decode_encode _, rfl⟩
      · intro screen g hs
        obtain ⟨hg₁, hg₂⟩ := hcreate screen g hs
        exact ⟨hg₁, hg₂, g, GroupInfo.decode_encode g, rfl⟩

theorem keyed_writes_step (h : Keyed w) (hs : step w e = some w') {x : Write String Document}
    (hx : x ∈ (w'.device d).client.unarrived) :
  x.id ∈ w'.issued
  := by
  have hissued := step_issued hs
  rcases mem_unarrived_step hs hx with hx | ⟨c, app, cs, hh, hsettle, hx⟩
  · apply hissued (h.writes d x hx)
  · rcases mem_written hh (h.segmented d) hx with ⟨g, message, now, hs, rfl⟩ | ⟨screen, g, hs, rfl⟩
      | ⟨row, g, hs, rfl⟩
    · apply hissued (h.versions.app d g hs.mem).1
    · apply drawn_issued hsettle
      simp [hs.drawn]
    · apply hissued (h.versions.app d g hs.mem).1

/-- A step keeps the documents with their ids. -/
theorem keyed_step (h : Keyed w) (hs : step w e = some w') :
  Keyed w'
  where
  versions := keyed_versions_step h hs
  writes _ _ hx := keyed_writes_step h hs hx

theorem keyed_of_run {es : List (Event D)} (h : run World.initial es = some w) :
  Keyed w
  := Run.invariant_of_step (fun _ _ _ hw hs => keyed_step hw hs) keyed_initial h

end Groups

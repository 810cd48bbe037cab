import TaskFirestoreApp.Groups.Keys

/-!
# Duplicates in the list of groups

`groupInfo` holds no group twice as long as what Home or the list loads is appended to a
`groupInfo` that holds none of it.
-/

namespace Groups

open Backend

variable {D : Type}

/-- No `groupInfo` has two entries with the same taskId. -/
def NoDuplicates (w : World D) : Prop :=
  ∀ d, ((w.device d).app.groupInfo.map GroupInfo.taskId).Nodup

/-- The reads that append what they find; a refresh replaces the list. -/
def Query.appends : Query → Bool
  | .home => true
  | .list => true
  | .refresh _ => false

/-- Of the groups that a load of Home or of the list finds, none is in `groupInfo` when the
load is delivered. -/
def LoadsNew (w : World D) (e : Event D) : Prop :=
  ∀ p ∈ e.delivery, ∀ r ∈ (w.device p.1).client.results[p.2]?, r.1.appends →
    ∀ g ∈ (w.device p.1).app.groupInfo, ∀ g' ∈ loaded r.2, g.taskId ≠ g'.taskId

instance (w : World D) (e : Event D) : Decidable (LoadsNew w e) :=
  inferInstanceAs (Decidable (∀ p ∈ e.delivery, ∀ r ∈ (w.device p.1).client.results[p.2]?,
    r.1.appends → ∀ g ∈ (w.device p.1).app.groupInfo, ∀ g' ∈ loaded r.2, g.taskId ≠ g'.taskId))

/-- A read finds no group twice. -/
theorem nodup_loaded {issued : List String} {c : Collection String Document}
    (hc : c.All (KeyedDocument issued)) :
  ((loaded c).map GroupInfo.taskId).Nodup
  := by
  have hids : (loaded c).map GroupInfo.taskId = (orderedByTaskId c).map Prod.fst := by
    apply Document.map_decodeAll
    rintro ⟨id, doc⟩ ha
    apply (hc id doc (Collection.mem_orderedBy.mp ha).1).2.2
  rw [hids]
  apply Collection.nodup_ids_orderedBy

section Step

variable [DecidableEq D] {w w' : World D} {e : Event D} {d : D}

omit [DecidableEq D] in
theorem listAfter_of_appends {q : Query} (hq : q.appends) (c : Collection String Document)
    (groupInfo : List GroupInfo) :
  listAfter q c groupInfo = groupInfo ++ loaded c
  := by
  cases q with
  | home => rfl
  | list => rfl
  | refresh chat => cases hq

/-- A handler leaves no duplicates when what it loads is new. -/
theorem nodup_handler {c : Client String Document Query Chat} {app : App} {cs : List Command}
    (hkeyed : Keyed w) (h : NoDuplicates w) (hnew : LoadsNew w e)
    (hh : handler program w e = some (d, c, some (app, cs)))
    (hsettle : settle program w d c (some (app, cs)) = some w') :
  (app.groupInfo.map GroupInfo.taskId).Nodup
  := by
  rcases handler_cases hh with ⟨g, message, now, hs⟩ | ⟨screen, g, hs⟩ | ⟨row, g, hs⟩ | hs
  · obtain ⟨s, -, hg, rfl, -⟩ := hs.chat
    have hsend : (g.send message now).taskId = g.taskId := rfl
    have hsame := taskId_set hg hsend
    apply hsame ▸ h d
  · -- the new id is none of those that have been handed out
    have hfresh : g.taskId ∉ w.issued := by
      apply (settle_issued hsettle).2
      simp [hs.drawn]
    rw [hs.app, List.map_append, List.nodup_append]
    use h d, List.nodup_singleton _
    rintro i hi j hj rfl
    obtain ⟨g', hg', hid⟩ := List.mem_map.mp hi
    apply hfresh
    rw [← List.mem_singleton.mp hj, ← hid]
    apply (hkeyed.versions.app d g' hg').1
  · rw [hs.app]
    apply List.nodup_nil
  · cases hs.shows with
    | taps row g event entry happ commands =>
        rw [happ]
        apply h d
    | appears s g chat entry happ commands =>
        rw [happ]
        apply h d
    | delivers i q k event result groupInfo presentable front rows chat commands =>
        subst event
        have hloaded := nodup_loaded (hkeyed.versions.results d _ (List.mem_of_getElem? result))
        rw [groupInfo]
        by_cases hq : q.appends
        · rw [listAfter_of_appends hq, List.map_append, List.nodup_append]
          use h d, hloaded
          intro i hi j hj
          obtain ⟨g, hg, rfl⟩ := List.mem_map.mp hi
          obtain ⟨g', hg', rfl⟩ := List.mem_map.mp hj
          apply hnew (d, _) rfl (q, k) result hq g hg g' hg'
        · cases q with
          | home | list => exact absurd rfl hq
          | refresh chat => apply hloaded
    | clears groupInfo rows chat registered =>
        rw [groupInfo]
        apply List.nodup_nil
    | keeps groupInfo front rows chat registered =>
        rw [groupInfo]
        apply h d

/-- The delivery of a load of Home or of the list appends what the load found. -/
theorem groupInfo_of_appends {i : ℕ} {q : Query} {k : Collection String Document}
    (hs : step w (.deliver d i ()) = some w')
    (hr : (w.device d).client.results[i]? = some (q, k)) (hq : q.appends) :
  (w'.device d).app.groupInfo = (w.device d).app.groupInfo ++ loaded k
  := by
  obtain ⟨⟨f, c, r⟩, hh, hsettle⟩ := Option.bind_eq_some_iff.mp hs
  obtain ⟨q', k', hr', rfl, -, rfl⟩ := handler_deliver.mp hh
  obtain ⟨rfl, rfl⟩ := Prod.mk.inj (Option.some.inj (hr.symm.trans hr'))
  cases q with
  | home | list =>
      rw [(settle_self hsettle).1]
      apply appendDocuments_eq
  | refresh chat => cases hq

/-- The steps that keep `groupInfo` free of duplicates are those that load new groups. -/
theorem noDuplicates_step (hkeyed : Keyed w) (h : NoDuplicates w) (hs : step w e = some w') :
  NoDuplicates w' ↔ LoadsNew w e
  := by
  constructor
  · rintro h' ⟨d, i⟩ he ⟨q, k⟩ hr hq g hg g' hg'
    obtain ⟨⟨⟩, rfl⟩ := Event.delivery_eq_some.mp he
    have hnodup := h' d
    rw [groupInfo_of_appends hs hr hq, List.map_append, List.nodup_append] at hnodup
    apply hnodup.2.2 _ (List.mem_map_of_mem hg) _ (List.mem_map_of_mem hg')
  · intro hnew d
    rcases app_step hs d with happ | happ | ⟨c, cs, hh, hsettle⟩
    · rw [happ]
      apply h d
    · rw [happ]
      apply List.nodup_nil
    · apply nodup_handler hkeyed h hnew hh hsettle

/-- In a run from the start no `groupInfo` ever holds a group twice exactly when every load of
Home and of the list is delivered to a `groupInfo` that holds none of the groups it found. -/
theorem noDuplicates_iff {es : List (Event D)} (h : run World.initial es = some w) :
  Run.Throughout step NoDuplicates World.initial es ↔ Run.Along step LoadsNew World.initial es
  := by
  apply Run.throughout_iff_along (J := Keyed) _ _ keyed_initial _ h
  · intro w e w' hw hs
    apply keyed_step hw hs
  · intro w e w' hkeyed hw hs
    apply noDuplicates_step hkeyed hw hs
  · intro d
    apply List.nodup_nil

end Step

end Groups

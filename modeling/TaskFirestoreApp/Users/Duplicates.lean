import TaskFirestoreApp.Users.Records

/-!
# Duplicates in the list of users

`userLists` holds no record twice as long as every load is appended to a `userLists` that
holds none of it.
-/

namespace Users

open Backend UserInfoManager

variable {D : Type}

/-- No `userLists` has two records with the same taskId. -/
def NoDuplicates (w : World D) : Prop :=
  ∀ d, ((w.device d).app.userLists.map UserInfo.taskId).Nodup

/-- Of the records that a load finds, none is in `userLists` when the load is delivered. -/
def LoadsNew (w : World D) (e : Event D) : Prop :=
  ∀ p ∈ e.delivery, ∀ r ∈ (w.device p.1).client.results[p.2]?,
    ∀ u ∈ (w.device p.1).app.userLists, ∀ v ∈ loaded r.1 r.2, u.taskId ≠ v.taskId

instance (w : World D) (e : Event D) : Decidable (LoadsNew w e) :=
  inferInstanceAs (Decidable (∀ p ∈ e.delivery, ∀ r ∈ (w.device p.1).client.results[p.2]?,
    ∀ u ∈ (w.device p.1).app.userLists, ∀ v ∈ loaded r.1 r.2, u.taskId ≠ v.taskId))

/-- A load returns no document twice. -/
theorem nodup_documents (q : Query) (c : Collection String Document) :
  ((documents q c).map Prod.fst).Nodup
  := by
  cases q with
  | home => apply Collection.nodup_ids_orderedBy
  | login number => apply Collection.nodup_ids_orderedBy

theorem mem_documents {q : Query} {c : Collection String Document} {id : String} {doc : Document}
    (h : (id, doc) ∈ documents q c) :
  c.lookup id = some doc
  := by
  cases q with
  | home => apply (Collection.mem_orderedBy.mp h).1
  | login number => apply (Collection.mem_orderedBy.mp h).1

/-- A load finds no record twice. -/
theorem nodup_loaded {l : List Creation} (q : Query) {c : Collection String Document}
    (hc : c.All (RecordedDocument l)) :
  ((loaded q c).map UserInfo.taskId).Nodup
  := by
  have hids : (loaded q c).map UserInfo.taskId = (documents q c).map Prod.fst := by
    apply Document.map_decodeAll
    rintro ⟨id, doc⟩ ha
    obtain ⟨u, hdec, hid, -⟩ := hc id doc (mem_documents ha)
    use u, hdec, hid
  rw [hids]
  apply nodup_documents

section Step

variable [DecidableEq D] {l : List Creation} {w w' : World D} {e : Event D} {d : D}
  {c : Client String Document Query Empty} {app : App} {cs : List Command}

omit [DecidableEq D] in
/-- The records in `userLists` and those a load finds are distinct when the load is new. -/
theorem nodup_append_loaded {i : ℕ} {q : Query} {k : Collection String Document}
    {record : NewRecord} (hrecorded : Recorded l w) (h : NoDuplicates w)
    (hnew : LoadsNew w (.deliver d i record))
    (hr : (w.device d).client.results[i]? = some (q, k)) :
  (((w.device d).app.userLists ++ loaded q k).map UserInfo.taskId).Nodup
  := by
  have hloaded := nodup_loaded q (hrecorded.versions.results d _ (List.mem_of_getElem? hr))
  rw [List.map_append, List.nodup_append]
  use h d, hloaded
  intro a ha b hb
  obtain ⟨u, hu, rfl⟩ := List.mem_map.mp ha
  obtain ⟨v, hv, rfl⟩ := List.mem_map.mp hb
  apply hnew (d, i) rfl (q, k) hr u hu v hv

/-- A handler leaves no duplicates when what it loads is new. -/
theorem nodup_handler (hrecorded : Recorded l w) (h : NoDuplicates w) (hnew : LoadsNew w e)
    (hh : handler program w e = some (d, c, some (app, cs)))
    (hsettle : settle program w d c (some (app, cs)) = some w') :
  (app.userLists.map UserInfo.taskId).Nodup
  := by
  rcases handler_cases hh with ⟨u, name, hs⟩ | ⟨u, hs⟩ | hs
  · have hsame : app.userLists.map UserInfo.taskId
        = (w.device d).app.userLists.map UserInfo.taskId := by
      rw [hs.app, setNameAtCurrentUserID, List.map_map]
      apply List.map_congr_left
      intro v _
      simp only [Function.comp_apply]
      split_ifs <;> rfl
    rw [hsame]
    apply h d
  · obtain ⟨i, number, k, record, rfl, hr, -, -, hlists⟩ := hs.delivery
    -- the new id is none of those that have been handed out
    have hfresh : u.taskId ∉ w.issued := by
      apply (settle_issued hsettle).2
      simp [hs.drawn]
    rw [hlists, List.map_append, List.nodup_append]
    use nodup_append_loaded hrecorded h hnew hr, List.nodup_singleton _
    rintro a ha b hb rfl
    obtain ⟨v, hv, hid⟩ := List.mem_map.mp ha
    apply hfresh
    rw [← List.mem_singleton.mp hb, ← hid]
    have hcreated : v.creation ∈ l := by
      rcases List.mem_append.mp hv with hv | hv
      · apply hrecorded.versions.app d v hv
      · apply creation_of_mem_loaded (hrecorded.versions.results d _ (List.mem_of_getElem? hr)) hv
    apply (hrecorded.issued v.creation hcreated).1
  · cases hs with
    | loads i q k record event result userLists session login found commands =>
        subst event
        rw [userLists]
        apply nodup_append_loaded hrecorded h hnew result
    | clears a event q userLists commands =>
        rw [userLists]
        apply List.nodup_nil
    | fails i event userLists session lastLoad commands =>
        rw [userLists]
        apply h d
    | keeps a event userLists session login lastLoad running commands =>
        rw [userLists]
        apply h d

/-- The delivery of a load appends what the load found, and a record of a user who has none at
most. -/
theorem userLists_of_deliver {i : ℕ} {q : Query} {k : Collection String Document}
    {record : NewRecord} (hs : step w (.deliver d i record) = some w')
    (hr : (w.device d).client.results[i]? = some (q, k)) :
  (w'.device d).app.userLists = (w.device d).app.userLists ++ loaded q k
    ∨ ∃ u, (w'.device d).app.userLists = (w.device d).app.userLists ++ loaded q k ++ [u]
      ∧ ∀ v ∈ (w.device d).app.userLists ++ loaded q k, v.userID ≠ u.userID
  := by
  obtain ⟨⟨f, c, r⟩, hh, hsettle⟩ := Option.bind_eq_some_iff.mp hs
  obtain ⟨q', k', hr', rfl, -, rfl⟩ := handler_deliver.mp hh
  obtain ⟨rfl, rfl⟩ := Prod.mk.inj (Option.some.inj (hr.symm.trans hr'))
  obtain ⟨⟨app, cs⟩, heff⟩ := callback_eq_some q k record (w.device d).app
  have hcallback : program.callback q k record (w.device d).app = some (app, cs) := heff
  rw [hcallback] at hsettle
  rw [(settle_self hsettle).1]
  rcases callback_cases hr heff with ⟨u, hs⟩ | hs
  · right
    use u
    rw [hs.userID]
    obtain ⟨j, number, k', record', he, hr', -, habsent, hlists⟩ := hs.delivery
    obtain ⟨-, rfl, -⟩ := Event.deliver.inj he
    obtain ⟨rfl, rfl⟩ := Prod.mk.inj (Option.some.inj (hr.symm.trans hr'))
    exact ⟨hlists, habsent⟩
  · cases hs with
    | loads j q' k' record' event result userLists session login found commands =>
        obtain ⟨-, rfl, -⟩ := Event.deliver.inj event
        obtain ⟨rfl, rfl⟩ := Prod.mk.inj (Option.some.inj (hr.symm.trans result))
        left
        apply userLists
    | clears a event | fails j event | keeps a event => cases event

/-- The steps that keep `userLists` free of duplicates are those that load new records. -/
theorem noDuplicates_step (hrecorded : Recorded l w) (h : NoDuplicates w)
    (hs : step w e = some w') :
  NoDuplicates w' ↔ LoadsNew w e
  := by
  constructor
  · rintro h' ⟨d, i⟩ he ⟨q, k⟩ hr u hu v hv
    obtain ⟨record, rfl⟩ := Event.delivery_eq_some.mp he
    have hnodup : (((w.device d).app.userLists ++ loaded q k).map UserInfo.taskId).Nodup := by
      rcases userLists_of_deliver hs hr with hlists | ⟨u, hlists, -⟩
      · apply hlists ▸ h' d
      · have hall := h' d
        rw [hlists, List.map_append] at hall
        apply hall.of_append_left
    rw [List.map_append, List.nodup_append] at hnodup
    apply hnodup.2.2 _ (List.mem_map_of_mem hu) _ (List.mem_map_of_mem hv)
  · intro hnew d
    rcases app_step hs d with happ | happ | ⟨c, cs, hh, hsettle⟩
    · rw [happ]
      apply h d
    · rw [happ]
      apply List.nodup_nil
    · apply nodup_handler hrecorded h hnew hh hsettle

/-- In a run from the start no `userLists` ever holds a record twice exactly when every load is
delivered to a `userLists` that holds none of the records it found. -/
theorem noDuplicates_iff {es : List (Event D)} (h : run World.initial es = some w) :
  Run.Throughout step NoDuplicates World.initial es ↔ Run.Along step LoadsNew World.initial es
  := by
  apply Run.throughout_iff_along (J := fun w => ∃ l, Recorded l w) _ _ ⟨[], recorded_initial⟩ _ h
  · rintro w e w' ⟨l, hw⟩ hs
    exact ⟨_, recorded_step hw hs⟩
  · rintro w e w' ⟨l, hrecorded⟩ hw hs
    apply noDuplicates_step hrecorded hw hs
  · intro d
    apply List.nodup_nil

end Step

end Users

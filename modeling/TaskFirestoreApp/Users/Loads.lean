import TaskFirestoreApp.Users.Duplicates

/-!
# The two loads

Home loads the records by taskId, a login screen by the time of creation. They find the same
records in different orders, and the record that is shown, renamed and saved is the last one of
the user. Which one that is depends on the load exactly when the record with the least taskId is
not the oldest.
-/

namespace Users

open Backend UserInfoManager

variable {D : Type}

/-- The load lists the record `u` after the record `v`. -/
def Below (q : Query) (u v : UserInfo) : Prop :=
  match q with
  | .home => u.taskId < v.taskId
  | .login _ => u.createdAt < v.createdAt ∨ u.createdAt = v.createdAt ∧ u.taskId < v.taskId

theorem Below.asymm {q : Query} {u v : UserInfo} (h : Below q u v) :
  ¬ Below q v u
  := by
  cases q with
  | home => exact lt_asymm h
  | login number =>
      rintro (hlt' | ⟨heq', hlt'⟩)
      · rcases h with hlt | ⟨heq, -⟩
        · apply lt_asymm hlt hlt'
        · apply hlt'.ne heq.symm
      · rcases h with hlt | ⟨-, hlt⟩
        · apply hlt.ne heq'.symm
        · apply lt_asymm hlt hlt'

/-- The last element of a list in descending order is its least one. -/
theorem getLast?_of_pairwise {α : Type*} {R : α → α → Prop} (hasymm : ∀ a b, R a b → ¬ R b a)
    {l : List α} (h : l.Pairwise fun a b => R b a) {a : α} :
  l.getLast? = some a ↔ a ∈ l ∧ ∀ b ∈ l, b = a ∨ R a b
  := by
  constructor
  · intro hlast
    obtain ⟨l', rfl⟩ := List.getLast?_eq_some_iff.mp hlast
    use List.mem_append_right _ (List.mem_singleton_self a)
    intro b hb
    rcases List.mem_append.mp hb with hb | hb
    · right
      apply (List.pairwise_append.mp h).2.2 b hb a (List.mem_singleton_self a)
    · left
      apply List.mem_singleton.mp hb
  · rintro ⟨ha, hleast⟩
    obtain ⟨b, hb⟩ := Option.isSome_iff_exists.mp
      (List.getLast?_isSome.mpr (List.ne_nil_of_mem ha))
    obtain ⟨l', rfl⟩ := List.getLast?_eq_some_iff.mp hb
    rw [hb]
    rcases hleast b (List.mem_append_right _ (List.mem_singleton_self b)) with rfl | hab
    · rfl
    · rcases List.mem_append.mp ha with ha | ha
      · have hba := (List.pairwise_append.mp h).2.2 a ha b (List.mem_singleton_self b)
        exact absurd hab (hasymm b a hba)
      · rw [List.mem_singleton.mp ha]

section Loaded

variable {l : List Creation} {c : Collection String Document} (hc : c.All (RecordedDocument l))

include hc

/-- A load lists the records in its order. -/
theorem pairwise_below (q : Query) :
  (loaded q c).Pairwise fun u v => Below q v u
  := by
  have hne : (loaded q c).Pairwise fun u v => u.taskId ≠ v.taskId :=
    List.pairwise_map.mp (nodup_loaded q hc)
  have hkeys : ∀ i doc u, c.lookup i = some doc → (UserInfo.decode doc).toOption = some u →
      u.taskId = i ∧ doc.field "taskId" = some (.string u.taskId)
        ∧ doc.field "createdAt" = some (.timestamp u.createdAt) := by
    intro i doc u hdoc hu
    have hu := Document.toOption_eq_some.mp hu
    obtain ⟨u', hu', hid, -⟩ := hc i doc hdoc
    obtain rfl : u' = u := by simpa [hu'] using hu
    obtain ⟨htaskId, -, -, hcreatedAt, -⟩ := UserInfo.decode_eq_ok.mp hu
    use hid, htaskId, hcreatedAt
  have hweak : (loaded q c).Pairwise fun u v => u.taskId ≠ v.taskId → Below q v u := by
    rw [loaded, Document.decodeAll, List.pairwise_filterMap]
    cases q with
    | home =>
        apply List.Pairwise.imp_of_mem _ Collection.pairwise_orderedBy
        rintro ⟨i, doc⟩ ⟨j, doc'⟩ hi hj ⟨k, k', hk, hk', hlt⟩ u hu v hv hne
        obtain ⟨rfl, hu, -⟩ := hkeys i doc u (Collection.mem_orderedBy.mp hi).1 hu
        obtain ⟨rfl, hv, -⟩ := hkeys j doc' v (Collection.mem_orderedBy.mp hj).1 hv
        obtain rfl := Option.some.inj (hu.symm.trans hk)
        obtain rfl := Option.some.inj (hv.symm.trans hk')
        rcases hlt with hlt | ⟨-, hle⟩
        · exact Value.string_lt_string.mp hlt
        · exact lt_of_le_of_ne hle hne.symm
    | login number =>
        apply List.Pairwise.imp_of_mem _ Collection.pairwise_orderedBy
        rintro ⟨i, doc⟩ ⟨j, doc'⟩ hi hj ⟨k, k', hk, hk', hlt⟩ u hu v hv hne
        obtain ⟨rfl, -, hu⟩ := hkeys i doc u (Collection.mem_orderedBy.mp hi).1 hu
        obtain ⟨rfl, -, hv⟩ := hkeys j doc' v (Collection.mem_orderedBy.mp hj).1 hv
        obtain rfl := Option.some.inj (hu.symm.trans hk)
        obtain rfl := Option.some.inj (hv.symm.trans hk')
        rcases hlt with hlt | ⟨heq, hle⟩
        · exact .inl (Value.timestamp_lt_timestamp.mp hlt)
        · exact .inr ⟨(Value.timestamp.inj heq).symm, lt_of_le_of_ne hle hne.symm⟩
  apply (hne.and hweak).imp
  rintro u v ⟨hne, hbelow⟩
  apply hbelow hne

/-- The last record of the user is the one the load lists after all the others. -/
theorem lastRecord_loaded_iff {q : Query} {userID : String} {u : UserInfo} :
  lastRecord userID (loaded q c) = some u
    ↔ u ∈ loaded q c ∧ u.userID = userID
      ∧ ∀ v ∈ loaded q c, v.userID = userID → v = u ∨ Below q u v
  := by
  rw [lastRecord, getLast?_of_pairwise (fun _ _ h => h.asymm) ((pairwise_below hc q).filter _)]
  simp only [List.mem_filter, decide_eq_true_eq, and_imp, and_assoc]

omit hc in
/-- The loads find the same records. -/
theorem mem_loaded_iff {q q' : Query} {u : UserInfo} :
  u ∈ loaded q c ↔ u ∈ loaded q' c
  := by
  rw [mem_loaded, mem_loaded]

theorem perm_loaded (q q' : Query) :
  (loaded q c).Perm (loaded q' c)
  := by
  apply (List.perm_ext_iff_of_nodup _ _).mpr fun u => mem_loaded_iff
  · apply List.Nodup.of_map _ (nodup_loaded q hc)
  · apply List.Nodup.of_map _ (nodup_loaded q' hc)

theorem lastRecord_eq_iff {userID : String} (number : ℕ) :
  lastRecord userID (loaded .home c) = lastRecord userID (loaded (.login number) c)
    ↔ ∀ u ∈ loaded .home c, u.userID = userID →
      (∀ v ∈ loaded .home c, v.userID = userID → u.taskId ≤ v.taskId) →
      ∀ v ∈ loaded .home c, v.userID = userID → u.createdAt ≤ v.createdAt
  := by
  -- records of one load with one taskId are the same
  have hinj : ∀ u ∈ loaded .home c, ∀ v ∈ loaded .home c, u.taskId = v.taskId → u = v :=
    fun u hu v hv => List.inj_on_of_nodup_map (nodup_loaded .home hc) hu hv
  constructor
  · intro heq u hu hid hleast v hv hvid
    have hlast : lastRecord userID (loaded .home c) = some u := by
      apply (lastRecord_loaded_iff hc).mpr
      use hu, hid
      intro v hv hvid
      rcases (hleast v hv hvid).eq_or_lt with heq | hlt
      · left
        exact (hinj u hu v hv heq).symm
      · right
        exact hlt
    rw [heq] at hlast
    rcases ((lastRecord_loaded_iff hc).mp hlast).2.2 v (mem_loaded_iff.mp hv) hvid with
      rfl | hlt | ⟨heq, -⟩
    · rfl
    · exact hlt.le
    · exact heq.le
  · intro holdest
    cases hlast : lastRecord userID (loaded .home c) with
    | none =>
        rw [lastRecord_eq_none] at hlast
        symm
        apply lastRecord_eq_none.mpr
        intro u hu
        apply hlast u (mem_loaded_iff.mp hu)
    | some u =>
        obtain ⟨hu, hid, hbelow⟩ := (lastRecord_loaded_iff hc).mp hlast
        have hleast : ∀ v ∈ loaded .home c, v.userID = userID → u.taskId ≤ v.taskId := by
          intro v hv hvid
          rcases hbelow v hv hvid with rfl | hlt
          · exact le_rfl
          · exact le_of_lt hlt
        symm
        apply (lastRecord_loaded_iff hc).mpr
        use mem_loaded_iff.mp hu, hid
        intro v hv hvid
        have hv' : v ∈ loaded .home c := mem_loaded_iff.mp hv
        apply (hbelow v hv' hvid).imp_right
        intro hlt
        rcases (holdest u hu hid hleast v hv' hvid).lt_or_eq with hold | hold
        · exact .inl hold
        · exact .inr ⟨hold, hlt⟩

end Loaded

section Run

variable [DecidableEq D] {w : World D}

/-- In every state that can be reached, the loads of a device find the same records, and the last
record of a user is the same in both exactly when the record of the user with the least taskId is
as old as any. -/
theorem loads_agree_iff {es : List (Event D)} (h : run World.initial es = some w) (d : D)
    (userID : String) (number : ℕ) :
  (loaded .home (w.view d)).Perm (loaded (.login number) (w.view d))
    ∧ (lastRecord userID (loaded .home (w.view d))
        = lastRecord userID (loaded (.login number) (w.view d))
      ↔ ∀ u ∈ loaded .home (w.view d), u.userID = userID →
        (∀ v ∈ loaded .home (w.view d), v.userID = userID → u.taskId ≤ v.taskId) →
        ∀ v ∈ loaded .home (w.view d), v.userID = userID → u.createdAt ≤ v.createdAt)
  := by
  have hview := (recorded_of_run h).versions.view d
  constructor
  · apply perm_loaded hview
  · apply lastRecord_eq_iff hview

end Run

/-- A user registers on one device and logs in on another before the first record arrives; the
second record is younger and has the lesser taskId. -/
theorem loads_agree_iff_younger :
  ∃ w ∈ run World.initial (launches true ++ loads true (record "x" (by decide))
      ++ registers true "u" ++ loads true (record "b" (by decide)) ++ launches false
      ++ loads false (record "y" (by decide)) ++ logsIn false "u"
      ++ loads false ⟨"a", 2, 2, by decide⟩ ++ [.arrive true, .arrive false]),
    lastRecord (describing (some "u")) (loaded .home (w.view true))
      ≠ lastRecord (describing (some "u")) (loaded (.login 0) (w.view true))
  := by
  have hrun : ∃ w ∈ run World.initial (launches true ++ loads true (record "x" (by decide))
      ++ registers true "u" ++ loads true (record "b" (by decide)) ++ launches false
      ++ loads false (record "y" (by decide)) ++ logsIn false "u"
      ++ loads false ⟨"a", 2, 2, by decide⟩ ++ [.arrive true, .arrive false]),
      ∃ u ∈ loaded .home (w.view true), u.userID = describing (some "u")
        ∧ (∀ v ∈ loaded .home (w.view true), v.userID = describing (some "u") → u.taskId ≤ v.taskId)
        ∧ ∃ v ∈ loaded .home (w.view true), v.userID = describing (some "u")
          ∧ v.createdAt < u.createdAt := by
    decide +kernel
  obtain ⟨w, hw, u, hu, hid, hleast, v, hv, hvid, hlt⟩ := hrun
  use w, hw
  rw [ne_eq, (loads_agree_iff hw true (describing (some "u")) 0).2]
  intro holdest
  apply (holdest u hu hid hleast v hv hvid).not_gt hlt

end Users

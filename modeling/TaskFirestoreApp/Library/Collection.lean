import Mathlib.Data.List.AList
import Mathlib.Data.List.Sort

/-!
# Collections of documents

A collection is a finite map from ids to documents. A write sets or deletes the whole
document of one id, and `overlay c ws` is the collection `c` under the writes `ws`, the
oldest first. `orderedBy key c` lists the documents that have a key, in descending order
of the key and then of the id, which is what a descending query returns.
-/

/-- A finite map from ids to documents. -/
abbrev Collection (Id Doc : Type*) : Type _ := AList (fun _ : Id => Doc)

/-- A write of one whole document. -/
inductive Write (Id Doc : Type*) where
  | set (id : Id) (doc : Doc)
  | delete (id : Id)
  deriving DecidableEq

namespace Write

variable {Id Doc : Type*}

/-- The id a write is about. -/
def id : Write Id Doc → Id
  | .set i _ => i
  | .delete i => i

/-- The document a write leaves at its id. -/
def doc : Write Id Doc → Option Doc
  | .set _ d => some d
  | .delete _ => none

@[simp]
theorem id_set (i : Id) (d : Doc) :
  (set i d).id = i
  := rfl

@[simp]
theorem id_delete (i : Id) :
  (delete i : Write Id Doc).id = i
  := rfl

@[simp]
theorem doc_set (i : Id) (d : Doc) :
  (set i d).doc = some d
  := rfl

@[simp]
theorem doc_delete (i : Id) :
  (delete i : Write Id Doc).doc = none
  := rfl

/-- Every document the write carries satisfies `P` at the id it is written to. -/
def All (P : Id → Doc → Prop) : Write Id Doc → Prop
  | .set i d => P i d
  | .delete _ => True

theorem All.mono {P Q : Id → Doc → Prop} (h : ∀ i d, P i d → Q i d) {x : Write Id Doc}
    (hx : x.All P) :
  x.All Q
  := by
  cases x with
  | set i d => apply h i d hx
  | delete i => trivial

variable [DecidableEq Id]

/-- The collection after a write. -/
def apply : Write Id Doc → Collection Id Doc → Collection Id Doc
  | .set i d, c => c.insert i d
  | .delete i, c => c.erase i

/-- A write changes the document of its own id only. -/
theorem lookup_apply (x : Write Id Doc) (c : Collection Id Doc) (i : Id) :
  (x.apply c).lookup i = if x.id = i then x.doc else c.lookup i
  := by
  split_ifs with h
  · subst h
    cases x with
    | set j d => apply AList.lookup_insert c
    | delete j => apply AList.lookup_erase j c
  · cases x with
    | set j d => apply AList.lookup_insert_ne (Ne.symm h)
    | delete j => apply AList.lookup_erase_ne (Ne.symm h)

end Write

namespace Collection

section Overlay

variable {Id Doc : Type*} [DecidableEq Id] {P Q : Id → Doc → Prop}

/-- The collection under a list of writes, the oldest first. -/
def overlay (c : Collection Id Doc) (ws : List (Write Id Doc)) : Collection Id Doc :=
  ws.foldl (fun c x => x.apply c) c

@[simp]
theorem overlay_nil (c : Collection Id Doc) :
  overlay c [] = c
  := rfl

@[simp]
theorem overlay_cons (c : Collection Id Doc) (x : Write Id Doc) (ws : List (Write Id Doc)) :
  overlay c (x :: ws) = overlay (x.apply c) ws
  := rfl

/-- A document found under a list of writes was there before them or is set by one of
them. -/
theorem lookup_overlay_some {c : Collection Id Doc} {ws : List (Write Id Doc)} {i : Id} {d : Doc}
    (h : (overlay c ws).lookup i = some d) :
  c.lookup i = some d ∨ .set i d ∈ ws
  := by
  induction ws generalizing c with
  | nil => exact .inl h
  | cons x ws ih =>
      rcases ih h with h' | h'
      · rw [Write.lookup_apply] at h'
        split_ifs at h' with hx
        · cases x with
          | set j d' =>
              obtain rfl : d' = d := by simpa [Write.doc] using h'
              subst hx
              right
              apply List.mem_cons_self
          | delete j => simp [Write.doc] at h'
        · left
          apply h'
      · right
        apply List.mem_cons_of_mem _ h'

/-- Under writes that delete nothing there is a document of `i` when there was one or one is
written. -/
theorem isSome_lookup_overlay {c : Collection Id Doc} {ws : List (Write Id Doc)} {i : Id}
    (h : ∀ x ∈ ws, x.doc.isSome) :
  ((overlay c ws).lookup i).isSome ↔ (c.lookup i).isSome ∨ ∃ x ∈ ws, x.id = i
  := by
  induction ws generalizing c with
  | nil => simp
  | cons x ws ih =>
      rw [overlay_cons, ih fun y hy => h y (List.mem_cons_of_mem _ hy), Write.lookup_apply]
      split_ifs with hx
      · simp [hx, h x List.mem_cons_self]
      · simp [hx]

/-- Every document of the collection satisfies `P` at its id. -/
def All (P : Id → Doc → Prop) (c : Collection Id Doc) : Prop :=
  ∀ i d, c.lookup i = some d → P i d

theorem All.mono (h : ∀ i d, P i d → Q i d) {c : Collection Id Doc} (hc : All P c) :
  All Q c
  := fun i d hd => h i d (hc i d hd)

theorem all_iff_entries {c : Collection Id Doc} :
  All P c ↔ ∀ e ∈ c.entries, P e.1 e.2
  := by
  constructor
  · intro h e he
    apply h e.1 e.2 (AList.mem_lookup_iff.mpr he)
  · intro h i d hd
    apply h ⟨i, d⟩ (AList.mem_lookup_iff.mp hd)

instance [∀ i d, Decidable (P i d)] (c : Collection Id Doc) : Decidable (All P c) :=
  decidable_of_iff _ all_iff_entries.symm

theorem all_empty :
  All P (∅ : Collection Id Doc)
  := by
  intro i d h
  simp [AList.lookup_empty] at h

theorem all_apply {c : Collection Id Doc} {x : Write Id Doc} (hc : All P c) (hx : x.All P) :
  All P (x.apply c)
  := by
  intro i d h
  rw [Write.lookup_apply] at h
  split_ifs at h with hi
  · subst hi
    cases x with
    | set j d' =>
        obtain rfl : d' = d := by simpa [Write.doc] using h
        apply hx
    | delete j => simp [Write.doc] at h
  · apply hc i d h

theorem all_overlay {c : Collection Id Doc} {ws : List (Write Id Doc)} (hc : All P c)
    (hws : ∀ x ∈ ws, x.All P) :
  All P (overlay c ws)
  := by
  intro i d h
  rcases lookup_overlay_some h with h | h
  · apply hc i d h
  · apply hws _ h

end Overlay

section Key

variable {Id Doc κ : Type*}

/-- The documents that have a key, each with its key and its id. -/
def keyed (key : Doc → Option κ) (c : Collection Id Doc) : List (κ × Id × Doc) :=
  c.entries.filterMap fun e => (key e.2).map fun k => (k, e.1, e.2)

variable {key : Doc → Option κ} {c : Collection Id Doc}

theorem mem_keyed [DecidableEq Id] {k : κ} {i : Id} {d : Doc} :
  (k, i, d) ∈ keyed key c ↔ c.lookup i = some d ∧ key d = some k
  := by
  simp only [keyed, List.mem_filterMap, Option.map_eq_some_iff]
  constructor
  · rintro ⟨⟨i', d'⟩, he, k', hk, heq⟩
    simp only [Prod.mk.injEq] at heq
    obtain ⟨rfl, rfl, rfl⟩ := heq
    use AList.mem_lookup_iff.mpr he, hk
  · rintro ⟨hi, hk⟩
    use ⟨i, d⟩, AList.mem_lookup_iff.mp hi, k, hk

theorem keyed_ids_sublist :
  ((keyed key c).map fun a => a.2.1).Sublist c.keys
  := by
  rw [AList.keys, List.keys, keyed]
  induction c.entries with
  | nil => simp
  | cons e es ih =>
      cases h : key e.2 with
      | none => simpa [h] using ih.cons _
      | some k => simpa [h] using ih.cons_cons e.1

end Key

section Order

variable {Id Doc κ : Type*} [LinearOrder Id] [LinearOrder κ]

/-- The order of a descending query: by the key, then by the id. -/
def Precedes (a b : κ × Id × Doc) : Prop :=
  b.1 < a.1 ∨ a.1 = b.1 ∧ b.2.1 ≤ a.2.1

instance : DecidableRel (@Precedes Id Doc κ _ _) :=
  fun a b => inferInstanceAs (Decidable (b.1 < a.1 ∨ a.1 = b.1 ∧ b.2.1 ≤ a.2.1))

instance : Std.Total (@Precedes Id Doc κ _ _) where
  total a b := by
    rcases lt_trichotomy a.1 b.1 with h | h | h
    · right
      left
      apply h
    · rcases le_total a.2.1 b.2.1 with h' | h'
      · right
        right
        use h.symm, h'
      · left
        right
        use h, h'
    · left
      left
      apply h

instance : IsTrans (κ × Id × Doc) Precedes where
  trans a b c := by
    rintro (h | ⟨h, hi⟩) (h' | ⟨h', hi'⟩)
    · left
      apply h'.trans h
    · left
      apply h' ▸ h
    · left
      apply h ▸ h'
    · right
      use h.trans h', hi'.trans hi

/-- The documents that have a key, in descending order of the key and then of the id. -/
def orderedBy (key : Doc → Option κ) (c : Collection Id Doc) : List (Id × Doc) :=
  ((keyed key c).insertionSort Precedes).map Prod.snd

variable {key : Doc → Option κ} {c c' : Collection Id Doc}

/-- A descending query returns the documents that have the key. -/
theorem mem_orderedBy {i : Id} {d : Doc} :
  (i, d) ∈ orderedBy key c ↔ c.lookup i = some d ∧ ∃ k, key d = some k
  := by
  simp only [orderedBy, List.mem_map, List.mem_insertionSort]
  constructor
  · rintro ⟨⟨k, i', d'⟩, hm, heq⟩
    simp only [Prod.mk.injEq] at heq
    obtain ⟨rfl, rfl⟩ := heq
    obtain ⟨h, hk⟩ := mem_keyed.mp hm
    use h, k, hk
  · rintro ⟨h, k, hk⟩
    use (k, i, d), mem_keyed.mpr ⟨h, hk⟩

/-- A query returns no document twice. -/
theorem nodup_ids_orderedBy :
  ((orderedBy key c).map Prod.fst).Nodup
  := by
  rw [orderedBy, List.map_map]
  apply ((List.perm_insertionSort _ _).map _).nodup_iff.mpr
  apply keyed_ids_sublist.nodup c.keys_nodup

/-- A query returns its documents in descending order of the key and then of the id. -/
theorem pairwise_orderedBy :
  (orderedBy key c).Pairwise fun a b =>
    ∃ k k', key a.2 = some k ∧ key b.2 = some k' ∧ (k' < k ∨ k = k' ∧ b.1 ≤ a.1)
  := by
  rw [orderedBy, List.pairwise_map]
  apply List.Pairwise.imp_of_mem _ (List.pairwise_insertionSort Precedes (keyed key c))
  rintro ⟨k, i, d⟩ ⟨k', i', d'⟩ h h' hp
  rw [List.mem_insertionSort] at h h'
  use k, k', (mem_keyed.mp h).2, (mem_keyed.mp h').2, hp

/-- When the key of a document is a function of its id, the ids a query returns depend on
the ids of the collection only. -/
theorem ids_orderedBy_congr {g : Id → κ} (hc : All (fun i d => key d = some (g i)) c)
    (hc' : All (fun i d => key d = some (g i)) c') (h : ∀ i, i ∈ c ↔ i ∈ c') :
  (orderedBy key c).map Prod.fst = (orderedBy key c').map Prod.fst
  := by
  have ids : ∀ {c : Collection Id Doc}, All (fun i d => key d = some (g i)) c →
      ∀ i, i ∈ (orderedBy key c).map Prod.fst ↔ i ∈ c := by
    intro c hc i
    simp only [List.mem_map, Prod.exists, exists_and_right, exists_eq_right, mem_orderedBy]
    rw [← AList.lookup_isSome, Option.isSome_iff_exists]
    constructor
    · rintro ⟨d, hd, -⟩
      use d, hd
    · rintro ⟨d, hd⟩
      use d, hd, g i, hc i d hd
  have sorted : ∀ {c : Collection Id Doc}, All (fun i d => key d = some (g i)) c →
      ((orderedBy key c).map Prod.fst).Pairwise fun i j => g j < g i ∨ g i = g j ∧ j ≤ i := by
    intro c hc
    rw [List.pairwise_map]
    apply List.Pairwise.imp_of_mem _ pairwise_orderedBy
    rintro ⟨i, d⟩ ⟨j, d'⟩ hi hj ⟨k, k', hk, hk', hp⟩
    have hi' := hc i d (mem_orderedBy.mp hi).1
    have hj' := hc j d' (mem_orderedBy.mp hj).1
    simp_all
  apply List.Perm.eq_of_pairwise _ (sorted hc) (sorted hc')
  · apply (List.perm_ext_iff_of_nodup nodup_ids_orderedBy nodup_ids_orderedBy).mpr
    intro i
    rw [ids hc, ids hc', h]
  · rintro i j - - (hij | ⟨hij, hij'⟩) (hji | ⟨hji, hji'⟩)
    · exact absurd hji hij.asymm
    · exact absurd hji hij.ne
    · exact absurd hij hji.ne
    · apply le_antisymm hji' hij'

end Order

end Collection

import Mathlib.Algebra.Ring.Parity
import Mathlib.Data.List.Induction
import Mathlib.Data.List.Nodup

/-!
# Toggling

To toggle an element of a list is to take it out, or to append it when it is not there.
After a sequence of toggles the list holds the elements that were toggled an odd number of
times, each once, in the order of their latest toggles.
-/

namespace Toggle

variable {α : Type*} [DecidableEq α] {a b : α} {l as : List α}

/-- Take `a` out of the list, or append it when it is not there. -/
def toggle (a : α) (l : List α) : List α :=
  if a ∈ l then l.erase a else l ++ [a]

/-- The list after the elements are toggled in turn, from the empty list. -/
def toggleAll (as : List α) : List α :=
  as.foldl (fun l a => toggle a l) []

/-- The place of the latest toggle of an element, counted from 1. -/
def latest (as : List α) (a : α) : ℕ :=
  as.length - as.reverse.idxOf a

theorem toggle_of_mem (h : a ∈ l) :
  toggle a l = l.erase a
  := if_pos h

theorem toggle_of_not_mem (h : a ∉ l) :
  toggle a l = l ++ [a]
  := if_neg h

@[simp]
theorem toggleAll_nil :
  toggleAll ([] : List α) = []
  := rfl

@[simp]
theorem toggleAll_concat :
  toggleAll (as ++ [a]) = toggle a (toggleAll as)
  := by
  simp [toggleAll]

theorem nodup_toggle (h : l.Nodup) :
  (toggle a l).Nodup
  := by
  by_cases ha : a ∈ l
  · rw [toggle_of_mem ha]
    apply h.erase
  · rw [toggle_of_not_mem ha]
    apply h.append (List.nodup_singleton a)
    simpa using ha

theorem mem_toggle_self (h : l.Nodup) :
  a ∈ toggle a l ↔ a ∉ l
  := by
  by_cases ha : a ∈ l
  · simp [toggle_of_mem ha, ha, h.not_mem_erase]
  · simp [toggle_of_not_mem ha, ha]

theorem mem_toggle_of_ne (h : b ≠ a) :
  b ∈ toggle a l ↔ b ∈ l
  := by
  by_cases ha : a ∈ l
  · rw [toggle_of_mem ha, List.mem_erase_of_ne h]
  · simp [toggle_of_not_mem ha, h]

theorem nodup_toggleAll :
  (toggleAll as).Nodup
  := by
  induction as using List.reverseRecOn with
  | nil => apply List.nodup_nil
  | append_singleton as a ih =>
      rw [toggleAll_concat]
      apply nodup_toggle ih

theorem mem_toggleAll :
  a ∈ toggleAll as ↔ Odd (as.count a)
  := by
  induction as using List.reverseRecOn with
  | nil => simp
  | append_singleton as b ih =>
      rw [toggleAll_concat, List.count_append]
      rcases eq_or_ne a b with rfl | h
      · rw [mem_toggle_self nodup_toggleAll, ih]
        simp [Nat.odd_add_one]
      · rw [mem_toggle_of_ne h, ih]
        simp [h.symm]

theorem latest_concat_self :
  latest (as ++ [a]) a = as.length + 1
  := by
  simp [latest]

theorem latest_concat_of_ne (h : b ≠ a) :
  latest (as ++ [a]) b = latest as b
  := by
  simp [latest, List.idxOf_cons_ne _ h.symm]

theorem latest_le :
  latest as a ≤ as.length
  := Nat.sub_le _ _

/-- The toggle of another element keeps the order of the latest toggles. -/
theorem pairwise_latest_concat (h : l.Pairwise fun a b => latest as a < latest as b)
    (ha : a ∉ l) :
  l.Pairwise fun b c => latest (as ++ [a]) b < latest (as ++ [a]) c
  := by
  have hne : ∀ b ∈ l, b ≠ a := by
    rintro b hb rfl
    apply ha hb
  apply h.imp_of_mem
  intro b c hb hc hbc
  rwa [latest_concat_of_ne (hne b hb), latest_concat_of_ne (hne c hc)]

/-- The elements stand in the order of their latest toggles. -/
theorem pairwise_toggleAll :
  (toggleAll as).Pairwise fun a b => latest as a < latest as b
  := by
  induction as using List.reverseRecOn with
  | nil => apply List.Pairwise.nil
  | append_singleton as c ih =>
      rw [toggleAll_concat]
      by_cases hc : c ∈ toggleAll as
      · rw [toggle_of_mem hc]
        apply pairwise_latest_concat (ih.sublist List.erase_sublist) nodup_toggleAll.not_mem_erase
      · rw [toggle_of_not_mem hc, List.pairwise_append]
        use pairwise_latest_concat ih hc, List.pairwise_singleton _ _
        intro a ha b hb
        obtain rfl := List.mem_singleton.mp hb
        have hne : a ≠ b := fun hab => hc (hab ▸ ha)
        rw [latest_concat_of_ne hne, latest_concat_self]
        apply Nat.lt_succ_of_le latest_le

end Toggle

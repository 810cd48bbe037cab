import TaskFirestoreApp.Library.Backend
import Mathlib.Data.List.Pairwise
import Mathlib.Order.Basic

/-!
# Registers written through queues

A register holds one value. Each device issues values into a queue of its own, from which
they arrive one by one and replace the value; a device sees the last value of its queue,
or the value of the register when its queue is empty. In an ascending register no arrival
makes the value smaller, and a register stays ascending as long as every value that is
issued is at least what its device sees and as large as the values in the other queues.

What a world knows of one document is a register: `World.register read i w`, where `read`
says what is of interest in the document `i`.
-/

@[ext]
structure Register (D V : Type*) where
  value : V
  queue : D → List V

namespace Register

variable {D V : Type*}

/-- What a device sees. -/
def view (r : Register D V) (d : D) : V :=
  (r.value :: r.queue d).getLast (List.cons_ne_nil _ _)

/-- A device sees the value of the register or one of its queue. -/
theorem view_mem {r : Register D V} {d : D} :
  r.view d ∈ r.value :: r.queue d
  := List.getLast_mem _

theorem view_of_nil {r : Register D V} {d : D} (h : r.queue d = []) :
  r.view d = r.value
  := by
  simp [view, h]

variable [DecidableEq D]

/-- The oldest value in the queue of `d` arrives, if there is one. -/
def arrive (r : Register D V) (d : D) : Register D V where
  value := (r.queue d).headD r.value
  queue := Function.update r.queue d (r.queue d).tail

/-- The device `d` issues the values `vs`. -/
def issue (r : Register D V) (d : D) (vs : List V) : Register D V where
  value := r.value
  queue := Function.update r.queue d (r.queue d ++ vs)

variable {r : Register D V} {d f : D} {v : V} {vs : List V}

@[simp]
theorem issue_value :
  (r.issue d vs).value = r.value
  := rfl

@[simp]
theorem issue_queue_self :
  (r.issue d vs).queue d = r.queue d ++ vs
  := by
  simp [issue]

@[simp]
theorem issue_queue_of_ne (h : f ≠ d) :
  (r.issue d vs).queue f = r.queue f
  := by
  simp [issue, h]

@[simp]
theorem issue_nil :
  r.issue d [] = r
  := by
  simp [issue]

@[simp]
theorem arrive_queue_self :
  (r.arrive d).queue d = (r.queue d).tail
  := by
  simp [arrive]

@[simp]
theorem arrive_queue_of_ne (h : f ≠ d) :
  (r.arrive d).queue f = r.queue f
  := by
  simp [arrive, h]

theorem arrive_of_nil (h : r.queue d = []) :
  r.arrive d = r
  := by
  ext1
  · simp [arrive, h]
  · simp only [arrive, h, List.tail_nil]
    rw [← h, Function.update_eq_self]

theorem arrive_value_of_cons (h : r.queue d = v :: vs) :
  (r.arrive d).value = v
  := by
  simp [arrive, h]

/-- An arrival does not change what its device sees. -/
@[simp]
theorem arrive_view_self :
  (r.arrive d).view d = r.view d
  := by
  cases h : r.queue d with
  | nil => rw [arrive_of_nil h]
  | cons v vs => simp [view, arrive, h]

@[simp]
theorem issue_view_self :
  (r.issue d [v]).view d = v
  := by
  simp [view]

theorem issue_view_of_ne (h : f ≠ d) :
  (r.issue d vs).view f = r.view f
  := by
  simp [view, h]

/-- What a device sees after an arrival is what it saw, or the value that arrived. -/
theorem arrive_view (d f : D) :
  (r.arrive d).view f = r.view f ∨ (r.arrive d).view f ∈ r.queue d
  := by
  rcases eq_or_ne f d with rfl | hf
  · left
    apply arrive_view_self
  · cases hd : r.queue d with
    | nil => exact .inl (by rw [arrive_of_nil hd])
    | cons v vs =>
        cases h : r.queue f with
        | nil =>
            rw [view_of_nil (by simp [hf, h]), arrive_value_of_cons hd]
            right
            apply List.mem_cons_self
        | cons v' vs' => exact .inl (by simp [view, hf, h])

/-! ### Ascending registers -/

section Ascending

variable [Preorder V]

/-- The values of each queue ascend from the value of the register, and values in different
queues are equivalent. -/
structure Ascending (r : Register D V) : Prop where
  queue : ∀ d, (r.value :: r.queue d).Pairwise (· ≤ ·)
  across : ∀ d f, d ≠ f → ∀ v ∈ r.queue d, ∀ v' ∈ r.queue f, v ≤ v'

omit [DecidableEq D] in
/-- A register with empty queues ascends. -/
theorem ascending_of_nil (h : ∀ d, r.queue d = []) :
  r.Ascending
  where
  queue d := by simp [h]
  across d f _ v hv := by simp [h] at hv

omit [DecidableEq D] in
theorem Ascending.le_view (h : r.Ascending) (hv : v ∈ r.value :: r.queue d) :
  v ≤ r.view d
  := (h.queue d).rel_getLast hv

theorem Ascending.le_arrive (h : r.Ascending) (d : D) :
  r.value ≤ (r.arrive d).value
  := by
  cases hq : r.queue d with
  | nil => rw [arrive_of_nil hq]
  | cons v vs =>
      rw [arrive_value_of_cons hq]
      have := h.queue d
      rw [hq] at this
      apply List.rel_of_pairwise_cons this List.mem_cons_self

theorem Ascending.arrive (h : r.Ascending) (d : D) :
  (r.arrive d).Ascending
  := by
  cases hq : r.queue d with
  | nil => rwa [arrive_of_nil hq]
  | cons v vs =>
      have hd : (r.value :: v :: vs).Pairwise (· ≤ ·) := hq ▸ h.queue d
      constructor
      · intro f
        rw [arrive_value_of_cons hq]
        rcases eq_or_ne f d with rfl | hf
        · simpa [hq] using hd.of_cons
        · rw [arrive_queue_of_ne hf]
          constructor
          · intro v' hv'
            apply h.across d f (Ne.symm hf) v (hq ▸ List.mem_cons_self) v' hv'
          · apply (h.queue f).of_cons
      · have hsub : ∀ f, (r.arrive d).queue f ⊆ r.queue f := by
          intro f
          rcases eq_or_ne f d with rfl | hf
          · simp [hq]
          · simp [hf]
        intro f f' hne v hv v' hv'
        apply h.across f f' hne v (hsub f hv) v' (hsub f' hv')

theorem Ascending.issue (h : r.Ascending) (hv : r.view d ≤ v)
    (hacross : ∀ f, f ≠ d → ∀ v' ∈ r.queue f, v ≤ v' ∧ v' ≤ v) :
  (r.issue d [v]).Ascending
  := by
  constructor
  · intro f
    rcases eq_or_ne f d with rfl | hf
    · rw [issue_value, issue_queue_self, ← List.cons_append, List.pairwise_append]
      use h.queue f, List.pairwise_singleton _ _
      intro a ha b hb
      obtain rfl := List.mem_singleton.mp hb
      apply (h.le_view ha).trans hv
    · simpa [hf] using h.queue f
  · intro f f' hne a ha b hb
    rcases eq_or_ne f d with rfl | hf
    · rw [issue_queue_of_ne (Ne.symm hne)] at hb
      rw [issue_queue_self, List.mem_append] at ha
      rcases ha with ha | ha
      · apply h.across f f' hne a ha b hb
      · obtain rfl := List.mem_singleton.mp ha
        apply (hacross f' (Ne.symm hne) b hb).1
    · rw [issue_queue_of_ne hf] at ha
      rcases eq_or_ne f' d with rfl | hf'
      · rw [issue_queue_self, List.mem_append] at hb
        rcases hb with hb | hb
        · apply h.across f f' hne a ha b hb
        · obtain rfl := List.mem_singleton.mp hb
          apply (hacross f hf a ha).2
      · rw [issue_queue_of_ne hf'] at hb
        apply h.across f f' hne a ha b hb

end Ascending

/-! ### The last word -/

/-- The device `d` has the last word with `v`: it is the last value in its queue, or it has
arrived, and nothing else is under way. -/
def LastWord (r : Register D V) (d : D) (v : V) : Prop :=
  (∃ vs, r.queue d = vs ++ [v])
    ∨ r.queue d = [] ∧ r.value = v ∧ ∀ f, ∀ v' ∈ r.queue f, v' = v

theorem lastWord_issue :
  (r.issue d [v]).LastWord d v
  := .inl ⟨r.queue d, issue_queue_self⟩

omit [DecidableEq D] in
/-- The device that has the last word sees its value. -/
theorem LastWord.view_self (h : r.LastWord d v) :
  r.view d = v
  := by
  rcases h with ⟨vs, hvs⟩ | ⟨hnil, hvalue, -⟩
  · simp [view, hvs]
  · rw [view_of_nil hnil, hvalue]

omit [DecidableEq D] in
/-- Once it has arrived, all devices see its value. -/
theorem LastWord.view_of_arrived (h : r.LastWord d v) (hnil : r.queue d = []) (f : D) :
  r.view f = v
  := by
  rcases h with ⟨vs, hvs⟩ | ⟨-, hvalue, hothers⟩
  · simp [hvs] at hnil
  · rcases List.mem_cons.mp (view_mem (r := r) (d := f)) with hv | hv
    · rw [hv, hvalue]
    · apply hothers f _ hv

/-- An arrival leaves the last word, if nothing else is under way when it arrives itself. -/
theorem LastWord.arrive (h : r.LastWord d v)
    (hothers : f = d → (r.queue d).length = 1 → ∀ f, f ≠ d → ∀ v' ∈ r.queue f, v' = v) :
  (r.arrive f).LastWord d v
  := by
  rcases h with ⟨vs, hvs⟩ | ⟨hnil, hvalue, hall⟩
  · rcases eq_or_ne f d with rfl | hf
    · cases vs with
      | cons v' vs => exact .inl ⟨vs, by simp [hvs]⟩
      | nil =>
          refine .inr ⟨by simp [hvs], arrive_value_of_cons hvs, ?_⟩
          intro f' v' hv'
          rcases eq_or_ne f' f with rfl | hf'
          · simp [hvs] at hv'
          · rw [arrive_queue_of_ne hf'] at hv'
            apply hothers rfl (by simp [hvs]) f' hf' v' hv'
    · refine .inl ⟨vs, ?_⟩
      rw [arrive_queue_of_ne (Ne.symm hf), hvs]
  · cases hq : r.queue f with
    | nil =>
        rw [arrive_of_nil hq]
        right
        use hnil, hvalue, hall
    | cons v' vs' =>
        have hf : d ≠ f := by
          rintro rfl
          simp [hnil] at hq
        refine .inr ⟨?_, ?_, ?_⟩
        · rw [arrive_queue_of_ne hf, hnil]
        · rw [arrive_value_of_cons hq]
          apply hall f v' (hq ▸ List.mem_cons_self)
        · intro f' v'' hv''
          rcases eq_or_ne f' f with rfl | hf'
          · rw [arrive_queue_self] at hv''
            apply hall f' v'' (List.mem_of_mem_tail hv'')
          · rw [arrive_queue_of_ne hf'] at hv''
            apply hall f' v'' hv''

/-! ### Still registers -/

/-- The register holds `v`, and nothing else is under way. -/
def Still (r : Register D V) (v : V) : Prop :=
  r.value = v ∧ ∀ d, ∀ v' ∈ r.queue d, v' = v

/-- An arrival leaves a still register as it is. -/
theorem Still.arrive (h : r.Still v) (d : D) :
  (r.arrive d).Still v
  := by
  cases hq : r.queue d with
  | nil => rwa [arrive_of_nil hq]
  | cons v' vs =>
      constructor
      · rw [arrive_value_of_cons hq]
        apply h.2 d v' (hq ▸ List.mem_cons_self)
      · intro f v'' hv''
        rcases eq_or_ne f d with rfl | hf
        · rw [arrive_queue_self] at hv''
          apply h.2 f v'' (List.mem_of_mem_tail hv'')
        · rw [arrive_queue_of_ne hf] at hv''
          apply h.2 f v'' hv''

/-- A register is still once a value has arrived that is all that is under way. -/
theorem still_arrive (hq : r.queue d = v :: vs) (h : ∀ f, ∀ v' ∈ r.queue f, v' = v) :
  (r.arrive d).Still v
  := by
  constructor
  · apply arrive_value_of_cons hq
  · intro f v' hv'
    rcases eq_or_ne f d with rfl | hf
    · rw [arrive_queue_self] at hv'
      apply h f v' (List.mem_of_mem_tail hv')
    · rw [arrive_queue_of_ne hf] at hv'
      apply h f v' hv'

/-- A register is still after an issue exactly when it was before and the same is issued. -/
theorem still_issue :
  (r.issue d vs).Still v ↔ r.Still v ∧ ∀ v' ∈ vs, v' = v
  := by
  constructor
  · rintro ⟨hvalue, hqueue⟩
    have hd := hqueue d
    rw [issue_queue_self] at hd
    refine ⟨⟨hvalue, ?_⟩, fun v' hv' => hd v' (List.mem_append_right _ hv')⟩
    intro f v' hv'
    rcases eq_or_ne f d with rfl | hf
    · apply hd v' (List.mem_append_left _ hv')
    · apply hqueue f v'
      rwa [issue_queue_of_ne hf]
  · rintro ⟨⟨hvalue, hqueue⟩, hvs⟩
    use hvalue
    intro f v' hv'
    rcases eq_or_ne f d with rfl | hf
    · rw [issue_queue_self] at hv'
      rcases List.mem_append.mp hv' with hv' | hv'
      · apply hqueue f v' hv'
      · apply hvs v' hv'
    · rw [issue_queue_of_ne hf] at hv'
      apply hqueue f v' hv'

end Register

namespace Collection

variable {Id Doc : Type*} [DecidableEq Id]

/-- The document of `i` under a list of writes is what the last write of `i` leaves. -/
theorem lookup_overlay_eq_getLast {c : Collection Id Doc} {ws : List (Write Id Doc)} {i : Id} :
  (overlay c ws).lookup i = (c.lookup i :: (ws.filter fun x => x.id = i).map Write.doc).getLast
    (List.cons_ne_nil _ _)
  := by
  induction ws generalizing c with
  | nil => rfl
  | cons x ws ih =>
      rw [overlay_cons, ih]
      by_cases hx : x.id = i
      · simp [hx, Write.lookup_apply]
      · simp [hx, Write.lookup_apply]

end Collection

/-! ### The register of a document -/

namespace Backend

variable {D App Action Input Id Doc Query Tag V : Type*} [DecidableEq Id]

/-- The register of what `read` says of the document `i`. -/
def World.register (read : Option Doc → V) (i : Id) (w : World D App Id Doc Query Tag) :
    Register D V where
  value := read (w.server.lookup i)
  queue d := ((w.device d).client.unarrived.filter fun x => x.id = i).map fun x => read x.doc

variable (read : Option Doc → V) (i : Id) {w w' : World D App Id Doc Query Tag} {d : D}

theorem register_view :
  (w.register read i).view d = read ((w.view d).lookup i)
  := by
  rw [World.view, Collection.lookup_overlay_eq_getLast, Register.view]
  rw [← List.getLast_map (f := read) (h := by simp)]
  simp only [World.register, List.map_cons, List.map_map]
  rfl

theorem forall_mem_queue {P : V → Prop} :
  (∀ v ∈ (w.register read i).queue d, P v)
    ↔ ∀ x ∈ (w.device d).client.unarrived, x.id = i → P (read x.doc)
  := by
  simp only [World.register, List.forall_mem_map, List.mem_filter, decide_eq_true_eq, and_imp]

/-- The registers of two worlds agree when their servers and their queues do. -/
theorem register_congr (hserver : w'.server = w.server)
    (hunarrived : ∀ f, (w'.device f).client.unarrived = (w.device f).client.unarrived) :
  w'.register read i = w.register read i
  := by
  ext1
  · simp [World.register, hserver]
  · simp [World.register, hunarrived]

variable [DecidableEq D] [DecidableEq Doc] {P : Program App Action Input Id Doc Query Tag}
  {c : Client Id Doc Query Tag}

/-- The arrival of a write is an arrival at the register of its document. -/
theorem register_arrive {x : Write Id Doc} {ws : List (Write Id Doc)}
    (hx : (w.device d).client.unarrived = x :: ws) (h : arrive w d = some w') :
  w'.register read i = if x.id = i then (w.register read i).arrive d else w.register read i
  := by
  obtain ⟨_, _, hx', rfl⟩ := arrive_cases h
  obtain ⟨rfl, rfl⟩ := List.cons.inj (hx.symm.trans hx')
  split_ifs with hi
  · ext1
    · simp [World.register, Register.arrive, Write.lookup_apply, hi, hx]
    · funext f
      rcases eq_or_ne f d with rfl | hf
      · simp [World.register, hi, hx]
      · simp [World.register, hf]
  · ext1
    · simp [World.register, Write.lookup_apply, hi]
    · funext f
      rcases eq_or_ne f d with rfl | hf
      · simp [World.register, hi, hx]
      · simp [World.register, hf]

omit [DecidableEq Doc] in
theorem register_answer {n : ℕ} (h : answer w d n = some w') :
  w'.register read i = w.register read i
  := by
  apply register_congr read i
  · obtain ⟨q, -, rfl⟩ := answer_cases h
    rfl
  · intro f
    apply (answer_device h f).2.1

/-- The writes of a handler are issued at the registers of their documents. -/
theorem register_settle {app : App} {cs : List (Command Id Doc Query Tag)}
    (hc : c.unarrived = (w.device d).client.unarrived)
    (h : settle P w d c (some (app, cs)) = some w') :
  w'.register read i = (w.register read i).issue d
    (((cs.filterMap Command.written).filter fun x => x.id = i).map fun x => read x.doc)
  := by
  ext1
  · simp [World.register, settle_server h]
  · funext f
    rcases eq_or_ne f d with rfl | hf
    · simp [World.register, settle_unarrived h hc]
    · simp [World.register, settle_device_of_ne h hf, hf]

/-- An app that is aborted or killed leaves the registers as they are. -/
theorem register_settle_none (hc : c.unarrived = (w.device d).client.unarrived)
    (h : settle P w d c none = some w') :
  w'.register read i = w.register read i
  := by
  apply register_congr read i (settle_server h)
  intro f
  rcases eq_or_ne f d with rfl | hf
  · simp [settle_unarrived h hc]
  · rw [settle_device_of_ne h hf]

end Backend

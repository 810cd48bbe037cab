import TaskFirestoreApp.Library.Part
import TaskFirestoreApp.Library.Settling

/-!
# Parts that come to rest together

An event that a part notices makes its potential smaller, and one that it does not notice makes
it no larger: it leaves the part alone, or kills it. So when two parts notice every event that
happens by itself, the sum of their potentials bounds the events of the whole app, although the
callbacks of one may write while the listeners of the other wait. The whole app is at rest when
both parts are.
-/

namespace Backend

open Finset

variable {D App Action Input Id Doc Query Tag App₁ Action₁ Input₁ Id₁ Query₁ Tag₁ App₂ Action₂
  Input₂ Id₂ Query₂ Tag₂ : Type*}

/-! ### The commands of a part -/

/-- The commands of a part are commands of the whole app by `f`, with ids by `id` and queries by
`query`. -/
structure Command.Embeds (f : Command Id₁ Doc Query₁ Tag₁ → Command Id Doc Query Tag)
    (id : Id₁ → Id) (query : Query₁ → Query) : Prop where
  drawn : ∀ x, (f x).drawn = x.drawn.map id
  written : ∀ x, (f x).written.isSome = x.written.isSome
  requested : ∀ x, (f x).requested = x.requested.map query
  registered : ∀ x, x.registered = none → (f x).registered = none

namespace Command.Embeds

variable {f : Command Id₁ Doc Query₁ Tag₁ → Command Id Doc Query Tag} {id : Id₁ → Id}
  {query : Query₁ → Query} {cs : List (Command Id₁ Doc Query₁ Tag₁)} {k : ℕ}

theorem filterMap_drawn (h : Embeds f id query) :
  (cs.map f).filterMap Command.drawn = (cs.filterMap Command.drawn).map id
  := by
  rw [List.filterMap_map, List.map_filterMap]
  exact congrArg (cs.filterMap ·) (funext h.drawn)

theorem filterMap_requested (h : Embeds f id query) :
  (cs.map f).filterMap Command.requested = (cs.filterMap Command.requested).map query
  := by
  rw [List.filterMap_map, List.map_filterMap]
  exact congrArg (cs.filterMap ·) (funext h.requested)

theorem length_written (h : Embeds f id query) :
  ((cs.map f).filterMap Command.written).length = (cs.filterMap Command.written).length
  := by
  rw [List.length_filterMap_eq_countP, List.length_filterMap_eq_countP, List.countP_map]
  exact congrArg (cs.countP ·) (funext h.written)

theorem filterMap_registered (h : Embeds f id query)
    (hcs : cs.filterMap Command.registered = []) :
  (cs.map f).filterMap Command.registered = []
  := by
  rw [List.filterMap_map]
  apply List.filterMap_eq_nil_iff.mpr
  intro x hx
  apply h.registered x (List.filterMap_eq_nil_iff.mp hcs x hx)

theorem answers (h : Embeds f id query) (hcs : Command.Answers k cs) :
  Command.Answers k (cs.map f)
  where
  written := h.length_written.trans_le hcs.written
  requested := by rw [h.filterMap_requested, hcs.requested, List.map_nil]
  registered := h.filterMap_registered hcs.registered

end Command.Embeds

section Potential

variable {w w' : World D App Id Doc Query Tag} {k : ℕ} {S : Finset D}

theorem potential_mono
    (hunarrived : ∀ d, (w'.device d).client.unarrived.length ≤ (w.device d).client.unarrived.length)
    (hlisteners : ∀ d, (w'.device d).client.listeners.length ≤ (w.device d).client.listeners.length)
    (hpending : ∀ d, (w'.device d).client.pending k ≤ (w.device d).client.pending k) :
  potential k S w' ≤ potential k S w
  := by
  have hU := sum_le_sum fun d (_ : d ∈ S) => hunarrived d
  have hL := sum_le_sum fun d (_ : d ∈ S) => hlisteners d
  have hO := sum_le_sum fun d (_ : d ∈ S) => hpending d
  unfold potential
  gcongr

/-- The end of an app leaves no more to be done. -/
theorem potential_of_none [DecidableEq D] [DecidableEq Id] [DecidableEq Doc]
    {P : Program App Action Input Id Doc Query Tag} {d : D} {c : Client Id Doc Query Tag}
    (hs : settle P w d c none = some w') (hc : c.unarrived = (w.device d).client.unarrived) :
  potential k S w' ≤ potential k S w
  := by
  have hself := settle_self_none hs
  have hothers : ∀ f, f ≠ d → w'.device f = w.device f := fun f hf => settle_device_of_ne hs hf
  apply potential_mono
  · intro f
    rcases eq_or_ne f d with rfl | hf
    · rw [hself]
      exact (congrArg List.length hc).le
    · rw [hothers f hf]
  · intro f
    rcases eq_or_ne f d with rfl | hf
    · rw [hself]
      exact Nat.zero_le _
    · rw [hothers f hf]
  · intro f
    rcases eq_or_ne f d with rfl | hf
    · rw [hself, pending_restart]
      exact Nat.zero_le _
    · rw [hothers f hf]

end Potential

variable [DecidableEq D] [DecidableEq Id] [DecidableEq Id₁] [DecidableEq Id₂] [DecidableEq Doc]
  {P : Program App Action Input Id Doc Query Tag}
  {P₁ : Program App₁ Action₁ Input₁ Id₁ Doc Query₁ Tag₁}
  {P₂ : Program App₂ Action₂ Input₂ Id₂ Doc Query₂ Tag₂}
  {w w' : World D App Id Doc Query Tag} {e : Event D Action Input} {d : D}
  {c : Client Id Doc Query Tag} {k k₁ k₂ : ℕ} {S : Finset D}

/-! ### One part -/

namespace Part

section

variable (Q : Part P P₁)

omit [DecidableEq D] [DecidableEq Id] [DecidableEq Id₁] [DecidableEq Doc] in
theorem confined_world (hS : Confined S w) :
  Confined S (Q.world w)
  := by
  intro d hd
  have hclient := hS d hd
  simp [Selection.world, Selection.device, Selection.client, hclient]

omit [DecidableEq D] [DecidableEq Id] [DecidableEq Id₁] [DecidableEq Doc] in
/-- What happens to the whole app by itself happens to the part by itself. -/
theorem spontaneous_of_eventOf {e' : Event D Action₁ Input₁} (h : Q.eventOf w e = some e')
    (he : e.Spontaneous) :
  e'.Spontaneous
  := by
  cases e with
  | act d a => cases he
  | kill d => cases he
  | arrive d | answer d i | deliver d i x | fail d i | snapshot d i =>
      obtain ⟨_, -, rfl⟩ := Option.map_eq_some_iff.mp h
      rfl

omit [DecidableEq D] [DecidableEq Id] [DecidableEq Id₁] [DecidableEq Doc] in
/-- A listener is due in the part when it is in the whole app. -/
theorem due_of_listener {l : Listener Id Tag} {l' : Listener Id₁ Tag₁}
    (h : Q.listener l = some l') :
  l'.due = l.due
  := by
  obtain ⟨i, -, hi⟩ := Option.bind_eq_some_iff.mp h
  obtain ⟨g, -, rfl⟩ := Option.map_eq_some_iff.mp hi
  rfl

omit [DecidableEq D] [DecidableEq Id₁] [DecidableEq Doc] in
/-- A handler that the part notices has something to do in it. -/
theorem pending_pos {e' : Event D Action₁ Input₁} {r : Option (Effect App Id Doc Query Tag)}
    (hh : handler P w e = some (d, c, r)) (he : e.Spontaneous) (h : Q.eventOf w e = some e') :
  0 < ((Q.world w).device d).client.pending k
  := by
  cases e with
  | act d' a => cases he
  | kill d' => cases he
  | arrive d' => simp [handler] at hh
  | answer d' i => simp [handler] at hh
  | deliver d' i x =>
      obtain ⟨q, v, hr, rfl, -⟩ := handler_deliver.mp hh
      obtain ⟨r', hr', -⟩ := Option.map_eq_some_iff.mp h
      obtain ⟨_, hr₁, hresult⟩ := Option.bind_eq_some_iff.mp hr'
      have hplace := List.filterMap_getElem?_place hr₁ hresult
      obtain ⟨hlt, -⟩ := List.getElem?_eq_some_iff.mp hplace
      have hpending := pending_eraseIdx_results (c := Q.client (w.device d').client) (k := k) hlt
      apply lt_of_lt_of_le _ hpending.le
      omega
  | fail d' i =>
      obtain ⟨q, hr, rfl, -⟩ := handler_fail.mp hh
      obtain ⟨q', hq', -⟩ := Option.map_eq_some_iff.mp h
      obtain ⟨_, hq₁, hquery⟩ := Option.bind_eq_some_iff.mp hq'
      have hplace := List.filterMap_getElem?_place hq₁ hquery
      obtain ⟨hlt, -⟩ := List.getElem?_eq_some_iff.mp hplace
      have hpending := pending_eraseIdx_requests (c := Q.client (w.device d').client) (k := k) hlt
      apply lt_of_lt_of_le _ hpending.le
      omega
  | snapshot d' i =>
      obtain ⟨l, hl, hdue, rfl, -⟩ := handler_snapshot.mp hh
      obtain ⟨l', hl', -⟩ := Option.map_eq_some_iff.mp h
      obtain ⟨l₁, hl₁, hlistener⟩ := Option.bind_eq_some_iff.mp hl'
      obtain rfl : l = l₁ := Option.some.inj (hl.symm.trans hl₁)
      have hplace := List.filterMap_getElem?_place hl₁ hlistener
      have hpending := pending_told (c := Q.client (w.device d').client) (k := k) hplace
        ((Q.due_of_listener hlistener).trans hdue)
      apply lt_of_lt_of_le _ hpending.le
      omega

/-- A step that the part notices makes its potential smaller. -/
theorem potential_lt_of_noticed (hP : P₁.Responsive k) (hk : k = 0 ∨ IsEmpty Tag₁)
    (hfit : Q.Fitting w) (hS : Confined S w) (he : e.Spontaneous) (hs : step P w e = some w')
    {e' : Event D Action₁ Input₁} (hnoticed : Q.eventOf w e = some e') :
  potential k S (Q.world w') < potential k S (Q.world w)
  := by
  have hS₁ := Q.confined_world hS
  have hlt : Q.event w e = Q.eventOf w e →
      potential k S (Q.world w') < potential k S (Q.world w) := by
    intro hevent
    have hstep := Q.step_world hfit hs
    rw [hevent, hnoticed] at hstep
    apply potential_lt hP hk hS₁ (Q.spontaneous_of_eventOf hnoticed he) hstep
  rcases step_cases hs with ⟨f, rfl, -⟩ | ⟨f, i, rfl, -⟩ | ⟨f, c, r, hh, hsettle⟩
  · apply hlt (Q.event_of_no_handler rfl)
  · apply hlt (Q.event_of_no_handler rfl)
  · cases r with
    | some eff => exact hlt (Q.event_of_some hh)
    | none =>
        have hf : f ∈ S := handler_device hh ▸ mem_of_spontaneous hS he hs
        have hsettle₁ := Q.settle_world hsettle
        have hc : (Q.client c).unarrived = ((Q.world w).device f).client.unarrived := by
          simp [Selection.world, Selection.device, Selection.client, (handler_client hh).1]
        apply potential_of_uses hk hf (uses_of_none hsettle₁ hc (Q.pending_pos hh he hnoticed))
        intro g hg
        apply settle_device_of_ne hsettle₁ hg

/-- A step that the part does not notice leaves it alone, or kills it. -/
theorem potential_le_of_unnoticed (hfit : Q.Fitting w) (hs : step P w e = some w')
    (hnone : Q.eventOf w e = none) :
  potential k S (Q.world w') ≤ potential k S (Q.world w)
  := by
  have hle : Q.event w e = Q.eventOf w e →
      potential k S (Q.world w') ≤ potential k S (Q.world w) := by
    intro hevent
    have hstep := Q.step_world hfit hs
    rw [hevent, hnone, Option.elim_none] at hstep
    rw [hstep]
  rcases step_cases hs with ⟨f, rfl, -⟩ | ⟨f, i, rfl, -⟩ | ⟨f, c, r, hh, hsettle⟩
  · apply hle (Q.event_of_no_handler rfl)
  · apply hle (Q.event_of_no_handler rfl)
  · cases r with
    | some eff => exact hle (Q.event_of_some hh)
    | none =>
        apply potential_of_none (Q.settle_world hsettle)
        simp [Selection.world, Selection.device, Selection.client, (handler_client hh).1]

theorem potential_le (hP : P₁.Responsive k) (hk : k = 0 ∨ IsEmpty Tag₁) (hfit : Q.Fitting w)
    (hS : Confined S w) (he : e.Spontaneous) (hs : step P w e = some w') :
  potential k S (Q.world w') ≤ potential k S (Q.world w)
  := by
  cases hnoticed : Q.eventOf w e with
  | none => exact Q.potential_le_of_unnoticed hfit hs hnoticed
  | some e' => exact (Q.potential_lt_of_noticed hP hk hfit hS he hs hnoticed).le

end

/-! ### Two parts -/

/-- Every document and every query is of one of the parts. -/
structure Cover (Q₁ : Part P P₁) (Q₂ : Part P P₂) : Prop where
  id : ∀ i, (Q₁.id i).isSome ∨ (Q₂.id i).isSome
  query : ∀ q, (Q₁.query q).isSome ∨ (Q₂.query q).isSome

namespace Cover

variable {Q₁ : Part P P₁} {Q₂ : Part P P₂}

omit [DecidableEq D] [DecidableEq Id] [DecidableEq Id₁] [DecidableEq Id₂] [DecidableEq Doc] in
theorem write (h : Cover Q₁ Q₂) (x : Write Id Doc) :
  (Q₁.write x).isSome ∨ (Q₂.write x).isSome
  := by
  cases x with
  | set i doc => simpa [Selection.write] using h.id i
  | delete i => simpa [Selection.write] using h.id i

omit [DecidableEq D] [DecidableEq Id] [DecidableEq Id₁] [DecidableEq Id₂] [DecidableEq Doc] in
theorem result (h : Cover Q₁ Q₂) (r : Query × Collection Id Doc) :
  (Q₁.result r).isSome ∨ (Q₂.result r).isSome
  := by
  simpa [Selection.result] using h.query r.1

omit [DecidableEq D] [DecidableEq Id] [DecidableEq Id₁] [DecidableEq Id₂] [DecidableEq Doc] in
theorem listener (h : Cover Q₁ Q₂) (hfit₁ : Q₁.Fitting w) (hfit₂ : Q₂.Fitting w)
    {l : Listener Id Tag} (hl : l ∈ (w.device d).client.listeners) :
  (Q₁.listener l).isSome ∨ (Q₂.listener l).isSome
  := by
  apply (h.id l.doc).imp
  · intro hid
    have htag := hfit₁ d l hl ▸ hid
    obtain ⟨i, hi⟩ := Option.isSome_iff_exists.mp hid
    obtain ⟨g, hg⟩ := Option.isSome_iff_exists.mp htag
    simp [Selection.listener, hi, hg]
  · intro hid
    have htag := hfit₂ d l hl ▸ hid
    obtain ⟨i, hi⟩ := Option.isSome_iff_exists.mp hid
    obtain ⟨g, hg⟩ := Option.isSome_iff_exists.mp htag
    simp [Selection.listener, hi, hg]

omit [DecidableEq Id₁] [DecidableEq Id₂] in
/-- One of the parts notices what happens by itself. -/
theorem noticed (h : Cover Q₁ Q₂) (hfit₁ : Q₁.Fitting w) (hfit₂ : Q₂.Fitting w)
    (he : e.Spontaneous) (hs : step P w e = some w') :
  (Q₁.eventOf w e).isSome ∨ (Q₂.eventOf w e).isSome
  := by
  cases e with
  | act d a => cases he
  | kill d => cases he
  | arrive d =>
      obtain ⟨x, ws, hx, -⟩ := arrive_cases hs
      simpa [Selection.eventOf, hx] using h.write x
  | answer d i =>
      obtain ⟨q, hq, -⟩ := answer_cases hs
      simpa [Selection.eventOf, hq] using h.query q
  | deliver d i x =>
      obtain ⟨⟨f, c, r⟩, hh, -⟩ := Option.bind_eq_some_iff.mp hs
      obtain ⟨q, v, hr, rfl, -⟩ := handler_deliver.mp hh
      simpa [Selection.eventOf, hr] using h.result (q, v)
  | fail d i =>
      obtain ⟨⟨f, c, r⟩, hh, -⟩ := Option.bind_eq_some_iff.mp hs
      obtain ⟨q, hq, rfl, -⟩ := handler_fail.mp hh
      simpa [Selection.eventOf, hq] using h.query q
  | snapshot d i =>
      obtain ⟨⟨f, c, r⟩, hh, -⟩ := Option.bind_eq_some_iff.mp hs
      obtain ⟨l, hl, -, rfl, -⟩ := handler_snapshot.mp hh
      simpa [Selection.eventOf, hl] using h.listener hfit₁ hfit₂ (List.mem_of_getElem? hl)

/-- What happens by itself makes the sum of the potentials smaller. -/
theorem potential_lt (h : Cover Q₁ Q₂) (hP₁ : P₁.Responsive k₁) (hk₁ : k₁ = 0 ∨ IsEmpty Tag₁)
    (hP₂ : P₂.Responsive k₂) (hk₂ : k₂ = 0 ∨ IsEmpty Tag₂) (hfit₁ : Q₁.Fitting w)
    (hfit₂ : Q₂.Fitting w) (hS : Confined S w) (he : e.Spontaneous) (hs : step P w e = some w') :
  potential k₁ S (Q₁.world w') + potential k₂ S (Q₂.world w')
    < potential k₁ S (Q₁.world w) + potential k₂ S (Q₂.world w)
  := by
  have hle₁ := Q₁.potential_le hP₁ hk₁ hfit₁ hS he hs
  have hle₂ := Q₂.potential_le hP₂ hk₂ hfit₂ hS he hs
  rcases h.noticed hfit₁ hfit₂ he hs with hsome | hsome
  · obtain ⟨e', he'⟩ := Option.isSome_iff_exists.mp hsome
    have hlt := Q₁.potential_lt_of_noticed hP₁ hk₁ hfit₁ hS he hs he'
    omega
  · obtain ⟨e', he'⟩ := Option.isSome_iff_exists.mp hsome
    have hlt := Q₂.potential_lt_of_noticed hP₂ hk₂ hfit₂ hS he hs he'
    omega

theorem length_le_potential (h : Cover Q₁ Q₂) (hP₁ : P₁.Responsive k₁)
    (hk₁ : k₁ = 0 ∨ IsEmpty Tag₁) (hP₂ : P₂.Responsive k₂) (hk₂ : k₂ = 0 ∨ IsEmpty Tag₂)
    {es : List (Event D Action Input)} (hfit₁ : Q₁.Fitting w) (hfit₂ : Q₂.Fitting w)
    (hS : Confined S w) (hes : ∀ e ∈ es, e.Spontaneous) (hs : Run.exec (step P) w es = some w') :
  es.length ≤ potential k₁ S (Q₁.world w) + potential k₂ S (Q₂.world w)
  := by
  induction es generalizing w with
  | nil => exact Nat.zero_le _
  | cons e es ih =>
      obtain ⟨w₁, hw₁, hes'⟩ := Run.exec_cons_iff.mp hs
      have he := hes e List.mem_cons_self
      have hlt := h.potential_lt hP₁ hk₁ hP₂ hk₂ hfit₁ hfit₂ hS he hw₁
      have hrest := ih (Q₁.fitting_step hfit₁ hw₁) (Q₂.fitting_step hfit₂ hw₁)
        (confined_of_spontaneous hS he hw₁) (fun a ha => hes a (List.mem_cons_of_mem _ ha)) hes'
      rw [List.length_cons]
      omega

/-- Parts that come to rest by themselves come to rest together. -/
theorem settles (h : Cover Q₁ Q₂) (hP : P.Responsive k) (hP₁ : P₁.Responsive k₁)
    (hk₁ : k₁ = 0 ∨ IsEmpty Tag₁) (hP₂ : P₂.Responsive k₂) (hk₂ : k₂ = 0 ∨ IsEmpty Tag₂)
    (hfit₁ : Q₁.Fitting w) (hfit₂ : Q₂.Fitting w) (hS : Confined S w) :
  Settles P w
  := by
  apply settles_of_bounded hP
  intro es w' hes hs
  apply h.length_le_potential hP₁ hk₁ hP₂ hk₂ hfit₁ hfit₂ hS hes hs

omit [DecidableEq D] [DecidableEq Id] [DecidableEq Id₁] [DecidableEq Id₂] [DecidableEq Doc] in
theorem eq_nil_iff {α β γ : Type*} {f : α → Option β} {g : α → Option γ} {l : List α}
    (h : ∀ a ∈ l, (f a).isSome ∨ (g a).isSome) :
  l = [] ↔ l.filterMap f = [] ∧ l.filterMap g = []
  := by
  constructor
  · rintro rfl
    exact ⟨rfl, rfl⟩
  · rintro ⟨hf, hg⟩
    apply List.eq_nil_iff_forall_not_mem.mpr
    intro a ha
    rcases h a ha with hsome | hsome
    · simp [List.filterMap_eq_nil_iff.mp hf a ha] at hsome
    · simp [List.filterMap_eq_nil_iff.mp hg a ha] at hsome

omit [DecidableEq D] [DecidableEq Id] [DecidableEq Id₁] [DecidableEq Id₂] [DecidableEq Doc] in
/-- A listener is due in the whole app when it is in the part. -/
theorem due_iff (h : Cover Q₁ Q₂) (hfit₁ : Q₁.Fitting w) (hfit₂ : Q₂.Fitting w) :
  (∀ l ∈ (w.device d).client.listeners, l.due = false)
    ↔ (∀ l ∈ ((Q₁.world w).device d).client.listeners, l.due = false)
      ∧ ∀ l ∈ ((Q₂.world w).device d).client.listeners, l.due = false
  := by
  constructor
  · intro hall
    constructor
    · intro l' hl'
      obtain ⟨l, hl, heq⟩ := List.mem_filterMap.mp hl'
      rw [Q₁.due_of_listener heq, hall l hl]
    · intro l' hl'
      obtain ⟨l, hl, heq⟩ := List.mem_filterMap.mp hl'
      rw [Q₂.due_of_listener heq, hall l hl]
  · rintro ⟨hall₁, hall₂⟩ l hl
    rcases h.listener hfit₁ hfit₂ hl with hsome | hsome
    · obtain ⟨l', heq⟩ := Option.isSome_iff_exists.mp hsome
      rw [← Q₁.due_of_listener heq, hall₁ l' (List.mem_filterMap.mpr ⟨l, hl, heq⟩)]
    · obtain ⟨l', heq⟩ := Option.isSome_iff_exists.mp hsome
      rw [← Q₂.due_of_listener heq, hall₂ l' (List.mem_filterMap.mpr ⟨l, hl, heq⟩)]

omit [DecidableEq D] [DecidableEq Id] [DecidableEq Id₁] [DecidableEq Id₂] [DecidableEq Doc] in
/-- The whole app is at rest when both parts are. -/
theorem quiet_iff (h : Cover Q₁ Q₂) (hfit₁ : Q₁.Fitting w) (hfit₂ : Q₂.Fitting w) :
  w.Quiet ↔ (Q₁.world w).Quiet ∧ (Q₂.world w).Quiet
  := by
  unfold World.Quiet
  rw [← forall_and]
  apply forall_congr'
  intro d
  rw [eq_nil_iff (fun x _ => h.write x), eq_nil_iff (fun q _ => h.query q),
    eq_nil_iff (fun r _ => h.result r), h.due_iff hfit₁ hfit₂]
  simp only [Selection.world, Selection.device, Selection.client]
  tauto

end Cover

end Part

end Backend

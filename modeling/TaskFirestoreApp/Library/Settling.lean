import TaskFirestoreApp.Library.Backend
import Mathlib.Algebra.BigOperators.Ring.Finset
import Mathlib.Algebra.Order.BigOperators.Group.Finset
import Mathlib.Tactic.Ring

/-!
# Settling

Writes arrive, queries are answered, delivered or fail, and listeners are told by
themselves. A program is responsive when its callbacks request nothing and register nothing
and its listeners request at most one query each. When its callbacks moreover write nothing,
or it has no listeners, the events that happen by themselves come to an end: `potential`
counts the work that is left and each of them makes it smaller. A world in which none of them
can happen is quiet.
-/

namespace Backend

open Finset

variable {D App Action Input Id Doc Query Tag : Type*}

/-- The event happens by itself: it is neither something the user does nor the end of an
app. -/
def Event.Spontaneous : Event D Action Input → Bool
  | .act _ _ => false
  | .kill _ => false
  | _ => true

/-- The device of an event. -/
def Event.device : Event D Action Input → D
  | .act d _ => d
  | .arrive d => d
  | .answer d _ => d
  | .deliver d _ _ => d
  | .fail d _ => d
  | .snapshot d _ => d
  | .kill d => d

/-- Nothing is outstanding. -/
def World.Quiet (w : World D App Id Doc Query Tag) : Prop :=
  ∀ d, (w.device d).client.unarrived = [] ∧ (w.device d).client.requests = []
    ∧ (w.device d).client.results = [] ∧ ∀ l ∈ (w.device d).client.listeners, l.due = false

/-- The commands of the callback of a query: at most `k` writes, no query and no listener. -/
structure Command.Answers (k : ℕ) (cs : List (Command Id Doc Query Tag)) : Prop where
  written : (cs.filterMap Command.written).length ≤ k
  requested : cs.filterMap Command.requested = []
  registered : cs.filterMap Command.registered = []

/-- Callbacks write at most `k` documents and ask for nothing more, and a listener asks for
at most one query. Whatever ids were handed out, some input of a callback draws none of
them. -/
structure Program.Responsive (k : ℕ) (P : Program App Action Input Id Doc Query Tag) : Prop where
  callback : ∀ {q c x app app' cs}, P.callback q c x app = some (app', cs) → Command.Answers k cs
  failed : ∀ {q app app' cs}, P.failed q app = some (app', cs) →
    Command.Answers k cs ∧ cs.filterMap Command.drawn = []
  listener : ∀ {g doc app app' cs}, P.listener g doc app = some (app', cs) →
    cs.filterMap Command.written = [] ∧ (cs.filterMap Command.requested).length ≤ 1
      ∧ cs.filterMap Command.registered = [] ∧ cs.filterMap Command.drawn = []
  input : ∀ (q : Query) (c : Collection Id Doc) (app : App) (ids : List Id),
    ∃ x, ∀ app' cs, P.callback q c x app = some (app', cs) →
      ∀ i ∈ cs.filterMap Command.drawn, i ∉ ids

/-! ### The work that is left -/

/-- The events a client has still to see but for its writes, each with those it may lead
to. -/
def Client.pending (k : ℕ) (c : Client Id Doc Query Tag) : ℕ :=
  c.requests.length * (k + 2) + c.results.length * (k + 1)
    + c.listeners.countP Listener.due * (k + 3)

/-- The events the devices `S` have still to see: the arrival of a write may make all
listeners due. -/
def potential (k : ℕ) (S : Finset D) (w : World D App Id Doc Query Tag) : ℕ :=
  (∑ d ∈ S, (w.device d).client.unarrived.length)
      * (1 + (∑ d ∈ S, (w.device d).client.listeners.length) * (k + 3))
    + ∑ d ∈ S, (w.device d).client.pending k

/-- The devices outside of `S` have nothing to do with the server. -/
def Confined (S : Finset D) (w : World D App Id Doc Query Tag) : Prop :=
  ∀ d, d ∉ S → (w.device d).client = ⟨[], [], [], []⟩

section Sums

variable {S : Finset D} {d : D} {f g : D → ℕ}

/-- A sum changes by what its term at `d` changes by, when the others stay. -/
theorem sum_add_of_ne [DecidableEq D] (hd : d ∈ S) (h : ∀ e, e ≠ d → g e = f e) :
  ∑ e ∈ S, g e + f d = ∑ e ∈ S, f e + g d
  := by
  have hrest : ∑ e ∈ S.erase d, g e = ∑ e ∈ S.erase d, f e := by
    apply sum_congr rfl
    intro e he
    apply h e (ne_of_mem_erase he)
  rw [← add_sum_erase S g hd, ← add_sum_erase S f hd, hrest]
  omega

end Sums

/-! ### One event -/

section Client

variable {k : ℕ} {c : Client Id Doc Query Tag}

theorem due_le_listeners :
  c.listeners.countP Listener.due ≤ c.listeners.length
  := List.countP_le_length

/-- A notification makes listeners due at most. -/
theorem pending_notify_le [DecidableEq Id] [DecidableEq Doc] (v v' : Collection Id Doc) :
  (c.notify v v').pending k ≤ c.pending k + c.listeners.length * (k + 3)
  := by
  have hdue : (c.notify v v').listeners.countP Listener.due ≤ c.listeners.length := by
    apply due_le_listeners.trans
    simp [Client.notify]
  have := Nat.mul_le_mul_right (k + 3) hdue
  simp only [Client.pending, Client.notify] at this ⊢
  omega

/-- A client without listeners is not notified. -/
theorem notify_of_nil [DecidableEq Id] [DecidableEq Doc] {v v' : Collection Id Doc}
    (h : c.listeners = []) :
  c.notify v v' = c
  := by
  simp only [Client.notify, h, List.map_nil]
  rw [← h]

theorem pending_restart :
  c.restart.pending k = 0
  := by
  simp [Client.restart, Client.pending]

/-- What commands that register no listener add to the pending events. -/
theorem pending_run {cs : List (Command Id Doc Query Tag)}
    (hcs : cs.filterMap Command.registered = []) :
  (c.run cs).pending k = c.pending k + (cs.filterMap Command.requested).length * (k + 2)
  := by
  simp only [Client.pending, Client.run_requests, Client.run_results, Client.run_listeners, hcs,
    List.length_append, List.append_nil]
  ring

theorem pending_eraseIdx_requests {i : ℕ} (h : i < c.requests.length) :
  ({ c with requests := c.requests.eraseIdx i } : Client Id Doc Query Tag).pending k + (k + 2)
    = c.pending k
  := by
  obtain ⟨n, hn⟩ : ∃ n, c.requests.length = n + 1 := ⟨c.requests.length - 1, by omega⟩
  simp only [Client.pending, List.length_eraseIdx_of_lt h, hn, Nat.add_sub_cancel]
  ring

theorem pending_eraseIdx_results {i : ℕ} (h : i < c.results.length) :
  ({ c with results := c.results.eraseIdx i } : Client Id Doc Query Tag).pending k + (k + 1)
    = c.pending k
  := by
  obtain ⟨n, hn⟩ : ∃ n, c.results.length = n + 1 := ⟨c.results.length - 1, by omega⟩
  simp only [Client.pending, List.length_eraseIdx_of_lt h, hn, Nat.add_sub_cancel]
  ring

/-- A listener that was told is no longer due. -/
theorem pending_told {i : ℕ} {l : Listener Id Tag} (h : c.listeners[i]? = some l) (hdue : l.due) :
  ({ c with listeners := c.listeners.set i { l with due := false } } :
      Client Id Doc Query Tag).pending k + (k + 3) = c.pending k
  := by
  obtain ⟨hlt, rfl⟩ := List.getElem?_eq_some_iff.mp h
  have hpos : 0 < c.listeners.countP Listener.due :=
    List.countP_pos_iff.mpr ⟨_, List.getElem_mem hlt, hdue⟩
  obtain ⟨n, hn⟩ : ∃ n, c.listeners.countP Listener.due = n + 1 :=
    ⟨c.listeners.countP Listener.due - 1, by omega⟩
  simp only [Client.pending, List.countP_set hlt, hdue, hn, if_true, Nat.add_sub_cancel]
  simp
  ring

end Client

section Step

variable [DecidableEq D] [DecidableEq Id] [DecidableEq Doc]
  {P : Program App Action Input Id Doc Query Tag} {w w' : World D App Id Doc Query Tag}
  {e : Event D Action Input} {d : D} {c : Client Id Doc Query Tag} {k : ℕ} {S : Finset D}

/-- A device that is not notified, because it writes nothing or has no listener, is left as
its commands make it. -/
theorem settle_client {app : App} {cs : List (Command Id Doc Query Tag)}
    (hs : settle P w d c (some (app, cs)) = some w')
    (hc : c.unarrived = (w.device d).client.unarrived)
    (h : cs.filterMap Command.written = [] ∨ IsEmpty Tag) :
  (w'.device d).client = c.run cs
  := by
  rcases h with hnil | hempty
  · rw [(settle_device_of_written hs hc hnil).1]
  · rcases settle_cases hs with ⟨hr, -⟩ | ⟨app', cs', hr, -, rfl⟩
    · cases hr
    cases hr
    have hlisteners : (c.run cs).listeners = [] := by
      apply List.eq_nil_iff_forall_not_mem.mpr
      rintro ⟨_, g, _⟩
      exact hempty.elim g
    simp only [World.notify, World.put_device_self]
    apply notify_of_nil hlisteners

/-- The device after a callback or a listener ran: the commands were answers, or those of a
listener. -/
theorem settle_pending {app : App} {cs : List (Command Id Doc Query Tag)}
    (hs : settle P w d c (some (app, cs)) = some w')
    (hc : c.unarrived = (w.device d).client.unarrived)
    (h : cs.filterMap Command.written = [] ∨ IsEmpty Tag)
    (hcs : cs.filterMap Command.registered = []) :
  (w'.device d).client.listeners = c.listeners
    ∧ (w'.device d).client.unarrived.length
      = (w.device d).client.unarrived.length + (cs.filterMap Command.written).length
    ∧ (w'.device d).client.pending k
      = c.pending k + (cs.filterMap Command.requested).length * (k + 2)
  := by
  rw [settle_client hs hc h, pending_run hcs]
  simp [hcs, hc]

/-- What a step uses up of its own device: more than it adds to what is pending and what it
writes. -/
structure Uses (k : ℕ) (c c' : Client Id Doc Query Tag) : Prop where
  listeners : c'.listeners.length ≤ c.listeners.length
  pending : ∃ j ≤ k, c'.unarrived.length ≤ c.unarrived.length + j
    ∧ c'.pending k + j < c.pending k

/-- The end of an app uses up what is pending. -/
theorem uses_of_none (hs : settle P w d c none = some w')
    (hc : c.unarrived = (w.device d).client.unarrived)
    (hpending : 0 < (w.device d).client.pending k) :
  Uses k (w.device d).client (w'.device d).client
  := by
  rw [settle_self_none hs]
  constructor
  · simp [Client.restart]
  · refine ⟨0, Nat.zero_le _, ?_, ?_⟩
    · simp [Client.restart, hc]
    · rw [pending_restart]
      apply hpending

/-- A query that is delivered, or fails, is used up. -/
theorem uses_of_answers {app : App} {cs : List (Command Id Doc Query Tag)}
    (hk : k = 0 ∨ IsEmpty Tag) (hs : settle P w d c (some (app, cs)) = some w')
    (hcs : Command.Answers k cs) (hunarrived : c.unarrived = (w.device d).client.unarrived)
    (hlisteners : c.listeners = (w.device d).client.listeners)
    (hpending : c.pending k + (k + 1) ≤ (w.device d).client.pending k) :
  Uses k (w.device d).client (w'.device d).client
  := by
  have hwritten := hcs.written
  have hquiet : cs.filterMap Command.written = [] ∨ IsEmpty Tag := by
    apply hk.imp_left
    rintro rfl
    apply List.length_eq_zero_iff.mp (Nat.le_zero.mp hwritten)
  obtain ⟨hl, hu, hp⟩ := settle_pending (k := k) hs hunarrived hquiet hcs.registered
  constructor
  · rw [hl, hlisteners]
  · refine ⟨_, hwritten, hu.le, ?_⟩
    rw [hp, hcs.requested]
    simp only [List.length_nil, Nat.zero_mul, Nat.add_zero]
    omega

/-- A step that runs a handler by itself uses up something of its device. -/
theorem uses_of_handler (hP : P.Responsive k) (hk : k = 0 ∨ IsEmpty Tag)
    {r : Option (Effect App Id Doc Query Tag)} (hh : handler P w e = some (d, c, r))
    (he : e.Spontaneous) (hs : settle P w d c r = some w') :
  Uses k (w.device d).client (w'.device d).client
  := by
  cases e with
  | act d' a => cases he
  | kill d' => cases he
  | arrive d' => simp [handler] at hh
  | answer d' i => simp [handler] at hh
  | deliver d' i x =>
      obtain ⟨q, v, hr, rfl, hc, hcall⟩ := handler_deliver.mp hh
      obtain ⟨hlt, -⟩ := List.getElem?_eq_some_iff.mp hr
      have hpending : c.pending k + (k + 1) = (w.device d').client.pending k :=
        hc ▸ pending_eraseIdx_results hlt
      cases r with
      | none => exact uses_of_none hs (by rw [hc]) (by omega)
      | some eff =>
          apply uses_of_answers hk hs (hP.callback hcall.symm) (by rw [hc]) (by rw [hc])
          omega
  | fail d' i =>
      obtain ⟨q, hr, rfl, hc, hcall⟩ := handler_fail.mp hh
      obtain ⟨hlt, -⟩ := List.getElem?_eq_some_iff.mp hr
      have hpending : c.pending k + (k + 2) = (w.device d').client.pending k :=
        hc ▸ pending_eraseIdx_requests hlt
      cases r with
      | none => exact uses_of_none hs (by rw [hc]) (by omega)
      | some eff =>
          apply uses_of_answers hk hs (hP.failed hcall.symm).1 (by rw [hc]) (by rw [hc])
          omega
  | snapshot d' i =>
      obtain ⟨l, hl, hdue, rfl, hc, hcall⟩ := handler_snapshot.mp hh
      have hpending : c.pending k + (k + 3) = (w.device d').client.pending k :=
        hc ▸ pending_told hl hdue
      cases r with
      | none => exact uses_of_none hs (by rw [hc]) (by omega)
      | some eff =>
          obtain ⟨hwritten, hrequested, hregistered, -⟩ := hP.listener hcall.symm
          obtain ⟨hl', hu, hp⟩ :=
            settle_pending (k := k) hs (by rw [hc]) (.inl hwritten) hregistered
          constructor
          · rw [hl', hc, List.length_set]
          · refine ⟨0, Nat.zero_le _, ?_, ?_⟩
            · rw [hu, hwritten]
              rfl
            · have := Nat.mul_le_mul_right (k + 2) hrequested
              omega

/-! ### The potential -/

omit [DecidableEq D] [DecidableEq Doc] in
theorem handler_device {r : Option (Effect App Id Doc Query Tag)}
    (hh : handler P w e = some (d, c, r)) :
  e.device = d
  := by
  cases e with
  | act d' a => exact (handler_act.mp hh).2.1
  | deliver d' i x =>
      obtain ⟨_, _, -, rfl, -⟩ := handler_deliver.mp hh
      rfl
  | fail d' i =>
      obtain ⟨_, -, rfl, -⟩ := handler_fail.mp hh
      rfl
  | snapshot d' i =>
      obtain ⟨_, -, -, rfl, -⟩ := handler_snapshot.mp hh
      rfl
  | kill d' => exact (handler_kill.mp hh).1
  | arrive d' => simp [handler] at hh
  | answer d' i => simp [handler] at hh

/-- An arrival notifies every device. -/
theorem arrive_client (hs : arrive w d = some w') (f : D) :
  (w'.device f).client = Client.notify
    { (w.device f).client with unarrived := (w'.device f).client.unarrived } (w.view f) (w'.view f)
  := by
  obtain ⟨x, ws, -, rfl⟩ := arrive_cases hs
  rw [World.notify_view]
  rcases eq_or_ne f d with rfl | hf
  · simp [World.notify, Client.notify]
  · simp [World.notify, Client.notify, hf]

/-- Only the device of the event gets anything to do with the server. -/
theorem confined_step (hS : Confined S w) (hs : step P w e = some w') :
  Confined (insert e.device S) w'
  := by
  intro f hf
  obtain ⟨hne, hf⟩ := not_or.mp (mem_insert.not.mp hf)
  have hclient := hS f hf
  rcases step_cases hs with ⟨d, rfl, hs⟩ | ⟨d, i, rfl, hs⟩ | ⟨d, c, r, hh, hs⟩
  · rw [arrive_client hs f, (arrive_unarrived hs).2 f hne, hclient]
    rfl
  · rw [(answer_results hs).2 f hne, hclient]
  · rw [settle_device_of_ne hs (handler_device hh ▸ hne), hclient]

/-- A run confines the world to the devices that were and those of its events. -/
theorem exists_confined {es : List (Event D Action Input)} (hS : Confined S w)
    (hs : Run.exec (step P) w es = some w') :
  ∃ S', Confined S' w'
  := by
  apply Run.invariant_of_step (I := fun w => ∃ S, Confined S w) _ ⟨S, hS⟩ hs
  rintro w e w' ⟨S, hS⟩ he
  use insert e.device S, confined_step hS he

/-- A device with nothing to do with the server has no spontaneous event. -/
theorem mem_of_spontaneous (hS : Confined S w) (he : e.Spontaneous) (hs : step P w e = some w') :
  e.device ∈ S
  := by
  by_contra hd
  have hclient := hS _ hd
  cases e with
  | act d a => cases he
  | kill d => cases he
  | arrive d =>
      obtain ⟨x, ws, hx, -⟩ := arrive_cases hs
      simp [show (w.device d).client = _ from hclient] at hx
  | answer d i =>
      obtain ⟨q, hq, -⟩ := answer_cases hs
      simp [show (w.device d).client = _ from hclient] at hq
  | deliver d i x =>
      obtain ⟨⟨f, c, r⟩, hh, -⟩ := Option.bind_eq_some_iff.mp hs
      obtain ⟨q, v, hr, rfl, -⟩ := handler_deliver.mp hh
      simp [show (w.device d).client = _ from hclient] at hr
  | fail d i =>
      obtain ⟨⟨f, c, r⟩, hh, -⟩ := Option.bind_eq_some_iff.mp hs
      obtain ⟨q, hr, rfl, -⟩ := handler_fail.mp hh
      simp [show (w.device d).client = _ from hclient] at hr
  | snapshot d i =>
      obtain ⟨⟨f, c, r⟩, hh, -⟩ := Option.bind_eq_some_iff.mp hs
      obtain ⟨l, hl, -, rfl, -⟩ := handler_snapshot.mp hh
      simp [show (w.device d).client = _ from hclient] at hl

/-- An arrival uses up a write, and may make all listeners due. -/
theorem potential_arrive (hd : d ∈ S) (hs : arrive w d = some w') :
  potential k S w' < potential k S w
  := by
  have hunarrived : ∑ f ∈ S, (w'.device f).client.unarrived.length + 1
      = ∑ f ∈ S, (w.device f).client.unarrived.length := by
    obtain ⟨⟨x, hx⟩, hothers⟩ := arrive_unarrived hs
    have := sum_add_of_ne (f := fun f => (w.device f).client.unarrived.length)
      (g := fun f => (w'.device f).client.unarrived.length) hd fun f hf => by rw [hothers f hf]
    simp only [hx, List.length_cons] at this
    omega
  have hlisteners : ∑ f ∈ S, (w'.device f).client.listeners.length
      = ∑ f ∈ S, (w.device f).client.listeners.length := by
    apply sum_congr rfl
    intro f _
    rw [arrive_client hs f]
    simp [Client.notify]
  have hpending : ∑ f ∈ S, (w'.device f).client.pending k
      ≤ ∑ f ∈ S, (w.device f).client.pending k
        + (∑ f ∈ S, (w.device f).client.listeners.length) * (k + 3) := by
    rw [sum_mul, ← sum_add_distrib]
    apply sum_le_sum
    intro f _
    rw [arrive_client hs f]
    apply pending_notify_le
  simp only [potential, hlisteners, ← hunarrived]
  rw [Nat.add_mul]
  omega

omit [DecidableEq Id] [DecidableEq Doc] in
/-- A step that uses up something of its own device, and leaves the others as they are, makes
the potential smaller. -/
theorem potential_of_uses (hk : k = 0 ∨ IsEmpty Tag) (hd : d ∈ S)
    (huses : Uses k (w.device d).client (w'.device d).client)
    (hothers : ∀ f, f ≠ d → w'.device f = w.device f) :
  potential k S w' < potential k S w
  := by
  obtain ⟨hlisteners, j, hj, hunarrived, hpending⟩ := huses
  have hL := sum_add_of_ne (f := fun f => (w.device f).client.listeners.length)
    (g := fun f => (w'.device f).client.listeners.length) hd fun f hf => by rw [hothers f hf]
  have hU := sum_add_of_ne (f := fun f => (w.device f).client.unarrived.length)
    (g := fun f => (w'.device f).client.unarrived.length) hd fun f hf => by rw [hothers f hf]
  have hO := sum_add_of_ne (f := fun f => (w.device f).client.pending k)
    (g := fun f => (w'.device f).client.pending k) hd fun f hf => by rw [hothers f hf]
  unfold potential
  -- it writes nothing, or no arrival makes a listener due
  rcases hk with rfl | hempty
  · obtain rfl : j = 0 := Nat.le_zero.mp hj
    have hmul := Nat.mul_le_mul
      (show ∑ f ∈ S, (w'.device f).client.unarrived.length
        ≤ ∑ f ∈ S, (w.device f).client.unarrived.length by omega)
      (show 1 + (∑ f ∈ S, (w'.device f).client.listeners.length) * (0 + 3)
        ≤ 1 + (∑ f ∈ S, (w.device f).client.listeners.length) * (0 + 3) by omega)
    omega
  · have hnone : ∀ v : World D App Id Doc Query Tag,
        ∑ f ∈ S, (v.device f).client.listeners.length = 0 := by
      intro v
      apply sum_eq_zero
      intro f _
      rw [List.length_eq_zero_iff, List.eq_nil_iff_forall_not_mem]
      rintro ⟨_, g, _⟩
      exact hempty.elim g
    rw [hnone w, hnone w']
    omega

omit [DecidableEq Doc] in
theorem uses_of_answer {i : ℕ} (hs : answer w d i = some w') :
  Uses k (w.device d).client (w'.device d).client
  := by
  obtain ⟨q, hq, rfl⟩ := answer_cases hs
  obtain ⟨hlt, -⟩ := List.getElem?_eq_some_iff.mp hq
  have hpending := pending_eraseIdx_requests (k := k) hlt
  rw [World.put_device_self]
  refine ⟨le_rfl, 0, Nat.zero_le _, le_rfl, ?_⟩
  simp only [Client.pending, List.length_append, List.length_singleton, Nat.add_mul,
    Nat.one_mul] at hpending ⊢
  omega

/-- Every spontaneous event makes the potential smaller. -/
theorem potential_lt (hP : P.Responsive k) (hk : k = 0 ∨ IsEmpty Tag) (hS : Confined S w)
    (he : e.Spontaneous) (hs : step P w e = some w') :
  potential k S w' < potential k S w
  := by
  have hd := mem_of_spontaneous hS he hs
  rcases step_cases hs with ⟨d, rfl, hs⟩ | ⟨d, i, rfl, hs⟩ | ⟨d, c, r, hh, hs⟩
  · apply potential_arrive hd hs
  · apply potential_of_uses hk hd (uses_of_answer hs) (answer_results hs).2
  · rw [handler_device hh] at hd
    apply potential_of_uses hk hd (uses_of_handler hP hk hh he hs)
    intro f hf
    apply settle_device_of_ne hs hf

theorem confined_of_spontaneous (hS : Confined S w) (he : e.Spontaneous)
    (hs : step P w e = some w') :
  Confined S w'
  := by
  have hconfined := confined_step hS hs
  rwa [insert_eq_of_mem (mem_of_spontaneous hS he hs)] at hconfined

/-- A run of spontaneous events is no longer than the potential. -/
theorem length_le_potential (hP : P.Responsive k) (hk : k = 0 ∨ IsEmpty Tag)
    {es : List (Event D Action Input)} (hS : Confined S w) (hes : ∀ e ∈ es, e.Spontaneous)
    (hs : Run.exec (step P) w es = some w') :
  es.length + potential k S w' ≤ potential k S w
  := by
  induction es generalizing w with
  | nil =>
      obtain rfl : w = w' := by simpa using hs
      simp
  | cons e es ih =>
      obtain ⟨w₁, hw₁, hes'⟩ := Run.exec_cons_iff.mp hs
      have he := hes e List.mem_cons_self
      have hlt := potential_lt hP hk hS he hw₁
      have hrest := ih (confined_of_spontaneous hS he hw₁)
        (fun a ha => hes a (List.mem_cons_of_mem _ ha)) hes'
      rw [List.length_cons]
      omega

/-! ### Quiet worlds -/

/-- A world is quiet when nothing can happen by itself in order. -/
theorem quiet_of_stuck (hP : P.Responsive k)
    (h : ∀ e : Event D Action Input, e.Spontaneous → e.Orderly → step P w e = none) :
  w.Quiet
  := by
  intro d
  refine ⟨?_, ?_, ?_, ?_⟩
  · have := h (.arrive d) rfl rfl
    cases hx : (w.device d).client.unarrived with
    | nil => rfl
    | cons x ws => simp [step, arrive, hx] at this
  · have := h (.answer d 0) rfl rfl
    cases hq : (w.device d).client.requests with
    | nil => rfl
    | cons q qs => simp [step, answer, hq] at this
  · cases hr : (w.device d).client.results with
    | nil => rfl
    | cons r rs =>
        -- the result can be delivered: some input draws new ids only
        obtain ⟨x, hx⟩ := hP.input r.1 r.2 (w.device d).app w.issued
        have := h (.deliver d 0 x) rfl rfl
        simp only [step, handler, hr, List.getElem?_cons_zero, Option.map_some, Option.bind_some]
          at this
        cases hcall : P.callback r.1 r.2 x (w.device d).app with
        | none => simp [hcall, settle] at this
        | some eff =>
            obtain ⟨app, cs⟩ := eff
            have hfresh := hx app cs hcall
            simp [hcall, settle, -List.mem_filterMap] at this
            obtain ⟨i, hi, hissued⟩ := this
            exact absurd hissued (hfresh i hi)
  · intro l hl
    by_contra hdue
    rw [Bool.not_eq_false] at hdue
    obtain ⟨i, hi⟩ := List.mem_iff_getElem?.mp hl
    have := h (.snapshot d i) rfl rfl
    simp only [step, handler, hi, Option.filter_some, hdue, if_true,
      Option.map_some, Option.bind_some] at this
    cases hcall : P.listener l.tag ((w.view d).lookup l.doc) (w.device d).app with
    | none => simp [hcall, settle] at this
    | some eff =>
        obtain ⟨app, cs⟩ := eff
        simp [hcall, settle, (hP.listener hcall).2.2.2] at this

/-- In a quiet world nothing can happen by itself. -/
theorem stuck_of_quiet (h : w.Quiet) (he : e.Spontaneous) :
  step P w e = none
  := by
  cases e with
  | act d a => cases he
  | kill d => cases he
  | arrive d => simp [step, arrive, (h d).1]
  | answer d i => simp [step, answer, (h d).2.1]
  | deliver d i x => simp [step, handler, (h d).2.2.1]
  | fail d i => simp [step, handler, (h d).2.1]
  | snapshot d i =>
      cases hl : (w.device d).client.listeners[i]? with
      | none => simp [step, handler, hl]
      | some l => simp [step, handler, hl, (h d).2.2.2 l (List.mem_of_getElem? hl)]

/-- Left to itself, the world `w` comes to rest: there is a bound on the events that can
happen by themselves, when no more of them can happen in order nothing is outstanding, and when
nothing is outstanding none of them can happen at all. -/
structure Settles (P : Program App Action Input Id Doc Query Tag)
    (w : World D App Id Doc Query Tag) : Prop where
  bounded : ∃ n, ∀ es w', (∀ e ∈ es, e.Spontaneous) → Run.exec (step P) w es = some w' →
    es.length ≤ n
  reaches : ∃ es w', (∀ e ∈ es, e.Spontaneous ∧ e.Orderly) ∧ Run.exec (step P) w es = some w'
    ∧ w'.Quiet
  quiet : ∀ es w', (∀ e ∈ es, e.Spontaneous) → Run.exec (step P) w es = some w' →
    (w'.Quiet ↔ ∀ e : Event D Action Input, e.Spontaneous → e.Orderly → step P w' e = none)
  stuck : ∀ es w', (∀ e ∈ es, e.Spontaneous) → Run.exec (step P) w es = some w' → w'.Quiet →
    ∀ e : Event D Action Input, e.Spontaneous → step P w' e = none

/-- When the events that happen by themselves come to an end, they can end in a quiet world. -/
theorem exists_quiet_of_bounded (hP : P.Responsive k) {n : ℕ}
    (hn : ∀ es w', (∀ e ∈ es, e.Spontaneous) → Run.exec (step P) w es = some w' →
      es.length ≤ n) :
  ∃ es w', (∀ e ∈ es, e.Spontaneous ∧ e.Orderly) ∧ Run.exec (step P) w es = some w' ∧ w'.Quiet
  := by
  induction n generalizing w with
  | zero =>
      refine ⟨[], w, by simp, rfl, quiet_of_stuck hP ?_⟩
      intro e he _
      by_contra hs
      obtain ⟨w₁, hw₁⟩ := Option.ne_none_iff_exists'.mp hs
      simpa using hn [e] w₁ (by simpa using he) (Run.exec_cons_iff.mpr ⟨w₁, hw₁, rfl⟩)
  | succ n ih =>
      by_cases hstuck : ∀ e : Event D Action Input, e.Spontaneous → e.Orderly → step P w e = none
      · exact ⟨[], w, by simp, rfl, quiet_of_stuck hP hstuck⟩
      · push Not at hstuck
        obtain ⟨e, he, horderly, hs⟩ := hstuck
        obtain ⟨w₁, hw₁⟩ := Option.ne_none_iff_exists'.mp hs
        obtain ⟨es, w', hes, hrun, hquiet⟩ : ∃ es w', (∀ e ∈ es, e.Spontaneous ∧ e.Orderly)
            ∧ Run.exec (step P) w₁ es = some w' ∧ w'.Quiet := by
          apply ih
          intro es w' hes hs'
          have hlength := hn (e :: es) w' (List.forall_mem_cons.mpr ⟨he, hes⟩)
            (Run.exec_cons_iff.mpr ⟨w₁, hw₁, hs'⟩)
          rw [List.length_cons] at hlength
          omega
        refine ⟨e :: es, w', ?_, Run.exec_cons_iff.mpr ⟨w₁, hw₁, hrun⟩, hquiet⟩
        exact List.forall_mem_cons.mpr ⟨⟨he, horderly⟩, hes⟩

theorem settles_of_bounded (hP : P.Responsive k) {n : ℕ}
    (hn : ∀ es w', (∀ e ∈ es, e.Spontaneous) → Run.exec (step P) w es = some w' →
      es.length ≤ n) :
  Settles P w
  where
  bounded := ⟨n, hn⟩
  reaches := exists_quiet_of_bounded hP hn
  quiet _ _ _ _ := ⟨fun h _ he _ => stuck_of_quiet h he, quiet_of_stuck hP⟩
  stuck _ _ _ _ h _ he := stuck_of_quiet h he

/-- A world with finitely many devices at work comes to rest. -/
theorem settles (hP : P.Responsive k) (hk : k = 0 ∨ IsEmpty Tag) (hS : Confined S w) :
  Settles P w
  := by
  apply settles_of_bounded hP (n := potential k S w)
  intro es w' hes hs
  have := length_le_potential hP hk hS hes hs
  omega

end Step

end Backend

import TaskFirestoreApp.Library.Settling

/-!
# Taking turns

`Turns` are the runs of a relation between states that is labelled by what is done. They refine
an abstract machine when each of them is one of its steps, and carry out its runs when each of
its steps is one of them.

When one device of a program without listeners is at work and the others are at rest, what it
does by itself is what a sequential program does: a query is answered with what the server
stores, its callback runs once, and its writes arrive.
-/

/-- The states the relation `T` leads to from `s` by the turns `as`. -/
inductive Turns {σ α : Type*} (T : σ → α → σ → Prop) (s : σ) : List α → σ → Prop
  | nil : Turns T s [] s
  | snoc {as : List α} {a : α} {s₁ s₂ : σ} (turns : Turns T s as s₁) (turn : T s₁ a s₂) :
      Turns T s (as ++ [a]) s₂

namespace Turns

variable {σ τ α : Type*} {T : σ → α → σ → Prop} {R : σ → τ → Prop} {g : τ → α → Option τ}
  {f : τ → α → τ} {s s' : σ} {t t' : τ} {as : List α}

/-- When every turn is a step of an abstract machine, all of them are a run of it. -/
theorem simulates (h : ∀ s s' a t, R s t → T s a s' → ∃ t', g t a = some t' ∧ R s' t')
    (hs : R s t) (hturns : Turns T s as s') :
  ∃ t', Run.exec g t as = some t' ∧ R s' t'
  := by
  induction hturns with
  | nil => exact ⟨t, rfl, hs⟩
  | snoc turns turn ih =>
      obtain ⟨t₁, ht₁, hR₁⟩ := ih
      obtain ⟨t₂, ht₂, hR₂⟩ := h _ _ _ _ hR₁ turn
      use t₂, Run.exec_snoc ht₁ ht₂

/-- When moreover there is a turn for every step of the abstract machine, its runs can be
carried out. -/
theorem exists_of_exec (h : ∀ s s' a t, R s t → T s a s' → ∃ t', g t a = some t' ∧ R s' t')
    (hT : ∀ s a t t', R s t → g t a = some t' → ∃ s', T s a s') (hs : R s t)
    (hexec : Run.exec g t as = some t') :
  ∃ s', Turns T s as s'
  := by
  induction as using List.reverseRecOn generalizing t' with
  | nil => exact ⟨s, .nil⟩
  | append_singleton as a ih =>
      obtain ⟨t₁, ht₁, hlast⟩ := Run.exec_append_iff.mp hexec
      obtain ⟨t₂, ht₂, -⟩ := Run.exec_cons_iff.mp hlast
      obtain ⟨s₁, hturns⟩ := ih ht₁
      obtain ⟨t₁', ht₁', hR⟩ := simulates h hs hturns
      obtain rfl : t₁' = t₁ := Option.some.inj (ht₁'.symm.trans ht₁)
      obtain ⟨s', hturn⟩ := hT s₁ a t₁' t₂ hR ht₂
      use s', .snoc hturns hturn

/-- A machine whose steps are always possible folds them. -/
theorem exec_some :
  Run.exec (fun t a => some (f t a)) t as = some (as.foldl f t)
  := by
  induction as generalizing t with
  | nil => rfl
  | cons a as ih => apply ih

/-- The last turn follows the others. -/
theorem exists_of_concat {a : α} (h : Turns T s (as ++ [a]) s') :
  ∃ s₁, Turns T s as s₁ ∧ T s₁ a s'
  := by
  generalize has : as ++ [a] = as' at h
  cases h with
  | nil => simp at has
  | snoc turns turn =>
      obtain ⟨rfl, heq⟩ := List.append_inj' has rfl
      obtain rfl := List.singleton_inj.mp heq
      exact ⟨_, turns, turn⟩

end Turns

namespace Backend

variable {D App Action Input Id Doc Query Tag : Type*} [DecidableEq D] [DecidableEq Id]
  [DecidableEq Doc] [IsEmpty Tag] {P : Program App Action Input Id Doc Query Tag}
  {w w' w₀ : World D App Id Doc Query Tag} {e : Event D Action Input} {d : D} {q : Query}
  {app : App} {ids : List Id} {c : Collection Id Doc} {k : ℕ}

omit [DecidableEq D] [DecidableEq Id] [DecidableEq Doc] in
theorem listeners_eq_nil (ls : List (Listener Id Tag)) :
  ls = []
  := by
  apply List.eq_nil_iff_forall_not_mem.mpr
  rintro ⟨_, g, _⟩
  exact isEmptyElim g

omit [DecidableEq D] [DecidableEq Id] [DecidableEq Doc] in
/-- At rest a client without listeners has nothing at all. -/
theorem World.Quiet.client_eq (h : w.Quiet) (d : D) :
  (w.device d).client = ⟨[], [], [], []⟩
  := by
  obtain ⟨hunarrived, hrequests, hresults, -⟩ := h d
  rw [← hunarrived, ← hrequests, ← hresults,
    ← listeners_eq_nil (w.device d).client.listeners]

/-- Nothing but the writes of the device `d`, which has the app `app` and sees `c`, is
outstanding; the other devices are those of `w₀`. -/
structure Draining (w₀ : World D App Id Doc Query Tag) (d : D) (app : App) (ids : List Id)
    (c : Collection Id Doc) (w : World D App Id Doc Query Tag) : Prop where
  device : ∃ ws, w.device d = ⟨app, ⟨ws, [], [], []⟩⟩
  view : w.view d = c
  issued : w.issued = ids
  others : ∀ f, f ≠ d → w.device f = w₀.device f

omit [IsEmpty Tag] [DecidableEq Doc] [DecidableEq D] in
/-- When its writes have arrived the server is what the device saw. -/
theorem Draining.server (h : Draining w₀ d app ids c w) (hquiet : w.Quiet) :
  w.server = c
  := by
  rw [← h.view, World.view, (hquiet d).1]
  rfl

/-- What the device `d` does alone, from `w₀` on, when it has requested `q`: the query is
answered, its callback runs, and its writes arrive. -/
inductive Phase (P : Program App Action Input Id Doc Query Tag)
    (w₀ : World D App Id Doc Query Tag) (d : D) (q : Query) (w : World D App Id Doc Query Tag) :
    Prop
  | requested (server : w.server = w₀.server) (issued : w.issued = w₀.issued)
      (device : w.device d = ⟨(w₀.device d).app, ⟨[], [q], [], []⟩⟩)
      (others : ∀ f, f ≠ d → w.device f = w₀.device f)
  | answered (server : w.server = w₀.server) (issued : w.issued = w₀.issued)
      (device : w.device d = ⟨(w₀.device d).app, ⟨[], [], [(q, w₀.server)], []⟩⟩)
      (others : ∀ f, f ≠ d → w.device f = w₀.device f)
  | completed (x : Input) (app : App) (cs : List (Command Id Doc Query Tag))
      (callback : P.callback q w₀.server x (w₀.device d).app = some (app, cs))
      (fresh : ∀ i ∈ cs.filterMap Command.drawn, i ∉ w₀.issued)
      (draining : Draining w₀ d app (cs.filterMap Command.drawn ++ w₀.issued)
        (Collection.overlay w₀.server (cs.filterMap Command.written)) w)

/-- The devices but `d` have nothing outstanding. -/
def Alone (d : D) (w : World D App Id Doc Query Tag) : Prop :=
  ∀ f, f ≠ d → (w.device f).client = ⟨[], [], [], []⟩

omit [IsEmpty Tag] in
/-- What happens by itself happens on the device that is at work. -/
theorem device_of_alone (h : Alone d w) (he : e.Spontaneous) (hs : step P w e = some w') :
  e.device = d
  := by
  have hconfined : Confined {d} w := fun f hf => h f (Finset.notMem_singleton.mp hf)
  exact Finset.mem_singleton.mp (mem_of_spontaneous hconfined he hs)

/-- Nobody is notified of an arrival. -/
theorem arrive_alone (hs : arrive w d = some w') :
  ∃ x ws, (w.device d).client.unarrived = x :: ws ∧ w'.server = x.apply w.server
    ∧ w'.issued = w.issued
    ∧ w'.device d = ⟨(w.device d).app, { (w.device d).client with unarrived := ws }⟩
    ∧ ∀ f, f ≠ d → w'.device f = w.device f
  := by
  have hnotify : ∀ (v v' : Collection Id Doc) (c : Client Id Doc Query Tag), c.notify v v' = c :=
    fun v v' c => notify_of_nil (listeners_eq_nil c.listeners)
  obtain ⟨x, ws, hx, rfl⟩ := arrive_cases hs
  refine ⟨x, ws, hx, rfl, rfl, ?_, ?_⟩
  · simp [World.notify, hnotify]
  · intro f hf
    simp [World.notify, hnotify, hf]

/-- Nobody is notified by a handler. -/
theorem settle_alone {cl : Client Id Doc Query Tag} {cs : List (Command Id Doc Query Tag)}
    (hs : settle P w d cl (some (app, cs)) = some w') :
  w'.device d = ⟨app, cl.run cs⟩ ∧ ∀ f, f ≠ d → w'.device f = w.device f
  := by
  have hnotify : ∀ (v v' : Collection Id Doc) (c : Client Id Doc Query Tag), c.notify v v' = c :=
    fun v v' c => notify_of_nil (listeners_eq_nil c.listeners)
  constructor
  · rcases settle_cases hs with ⟨hr, -⟩ | ⟨app', cs', hr, -, rfl⟩
    · cases hr
    · cases hr
      simp [World.notify, hnotify]
  · intro f hf
    apply settle_device_of_ne hs hf

omit [IsEmpty Tag] in
theorem enabled_of_act {a : Action} (hs : step P w (.act d a) = some w') :
  P.enabled a (w.device d).app
  := by
  obtain ⟨⟨f, c, r⟩, hh, -⟩ := Option.bind_eq_some_iff.mp hs
  obtain ⟨henabled, rfl, -⟩ := handler_act.mp hh
  apply henabled

omit [IsEmpty Tag] in
/-- An action that is enabled and draws no id can be done. -/
theorem exists_act {a : Action} {cs : List (Command Id Doc Query Tag)}
    (henabled : P.enabled a (w.device d).app) (hact : P.act a (w.device d).app = some (app, cs))
    (hdrawn : cs.filterMap Command.drawn = []) :
  ∃ w', step P w (.act d a) = some w'
  := by
  rw [step_of_handler (handler_act.mpr ⟨henabled, rfl, rfl, hact.symm⟩)]
  simp [settle, hdrawn, -List.mem_filterMap]

/-- An action changes its own device only, and the server not at all. -/
theorem act_alone {a : Action} {cs : List (Command Id Doc Query Tag)}
    (hs : step P w (.act d a) = some w') (hact : P.act a (w.device d).app = some (app, cs)) :
  w'.device d = ⟨app, (w.device d).client.run cs⟩ ∧ w'.server = w.server
    ∧ ∀ f, f ≠ d → w'.device f = w.device f
  := by
  obtain ⟨⟨f, c, r⟩, hh, hsettle⟩ := Option.bind_eq_some_iff.mp hs
  obtain ⟨-, rfl, rfl, rfl⟩ := handler_act.mp hh
  simp only [hact] at hsettle
  obtain ⟨hdevice, hothers⟩ := settle_alone hsettle
  use hdevice, settle_server hsettle

omit [DecidableEq D] [DecidableEq Doc] in
/-- The handler of an event that happens by itself and in order is the callback of a query. -/
theorem deliver_of_handler {cl : Client Id Doc Query Tag} {r : Option (Effect App Id Doc Query Tag)}
    (hh : handler P w e = some (d, cl, r)) (he : e.Spontaneous ∧ e.Orderly) :
  ∃ q k x, e = .deliver d 0 x ∧ (w.device d).client.results[0]? = some (q, k)
    ∧ cl = { (w.device d).client with results := (w.device d).client.results.eraseIdx 0 }
    ∧ r = P.callback q k x (w.device d).app
  := by
  cases e with
  | act d' a => cases he.1
  | kill d' => cases he.1
  | fail d' i => cases he.2
  | arrive d' => simp [handler] at hh
  | answer d' i => simp [handler] at hh
  | snapshot d' i =>
      obtain ⟨l, -, -, -, -, -⟩ := handler_snapshot.mp hh
      exact isEmptyElim l.tag
  | deliver d' i x =>
      obtain rfl : i = 0 := of_decide_eq_true he.2
      obtain ⟨q, k, hk, rfl, rfl, rfl⟩ := handler_deliver.mp hh
      use q, k, x, rfl, hk, rfl

theorem draining_step (halone : Alone d w₀) (h : Draining w₀ d app ids c w)
    (he : e.Spontaneous ∧ e.Orderly) (hs : step P w e = some w') :
  Draining w₀ d app ids c w'
  := by
  obtain ⟨ws, hdevice⟩ := h.device
  have hwork : e.device = d := by
    apply device_of_alone _ he.1 hs
    intro f hf
    rw [h.others f hf]
    apply halone f hf
  rcases step_cases hs with ⟨f, rfl, hs⟩ | ⟨f, i, rfl, hs⟩ | ⟨f, cl, r, hh, hs⟩
  · obtain rfl : f = d := hwork
    obtain ⟨x, ws', hx, hserver, hissued, hdevice', hothers⟩ := arrive_alone hs
    rw [hdevice] at hdevice'
    constructor
    · use ws'
    · rw [← h.view, World.view, World.view, hdevice', hserver, hx]
      rfl
    · rw [hissued, h.issued]
    · intro g hg
      rw [hothers g hg, h.others g hg]
  · obtain rfl : f = d := hwork
    obtain ⟨q, hq, -⟩ := answer_cases hs
    simp [hdevice] at hq
  · obtain rfl : f = d := (handler_device hh).symm.trans hwork
    obtain ⟨q, k, x, -, hk, -⟩ := deliver_of_handler hh he
    simp [hdevice] at hk

/-- What the device that is at work does next. -/
theorem phase_step (hP : P.Responsive k) (halone : Alone d w₀)
    (hcall : ∀ x, (P.callback q w₀.server x (w₀.device d).app).isSome) (h : Phase P w₀ d q w)
    (he : e.Spontaneous ∧ e.Orderly) (hs : step P w e = some w') :
  Phase P w₀ d q w'
  := by
  have hwork : (∀ f, f ≠ d → w.device f = w₀.device f) → e.device = d := by
    intro hothers
    apply device_of_alone _ he.1 hs
    intro f hf
    rw [hothers f hf]
    apply halone f hf
  cases h with
  | requested server issued device others =>
      have hwork := hwork others
      rcases step_cases hs with ⟨f, rfl, hs⟩ | ⟨f, i, rfl, hs⟩ | ⟨f, cl, r, hh, hs⟩
      · obtain rfl : f = d := hwork
        obtain ⟨x, ws, hx, -⟩ := arrive_alone hs
        simp [device] at hx
      · obtain rfl : f = d := hwork
        obtain ⟨q', hq', rfl⟩ := answer_cases hs
        obtain ⟨rfl, rfl⟩ : i = 0 ∧ q' = q := by
          rw [device] at hq'
          cases i with
          | zero => exact ⟨rfl, (Option.some.inj hq').symm⟩
          | succ i => cases hq'
        have hview : w.view f = w₀.server := by
          rw [World.view, device, ← server]
          rfl
        refine Phase.answered server issued ?_ ?_
        · rw [World.put_device_self, hview, device]
          rfl
        · intro g hg
          rw [World.put_device_of_ne hg, others g hg]
      · obtain rfl : f = d := (handler_device hh).symm.trans hwork
        obtain ⟨q', k', x, -, hk, -⟩ := deliver_of_handler hh he
        simp [device] at hk
  | answered server issued device others =>
      have hwork := hwork others
      rcases step_cases hs with ⟨f, rfl, hs⟩ | ⟨f, i, rfl, hs⟩ | ⟨f, cl, r, hh, hs⟩
      · obtain rfl : f = d := hwork
        obtain ⟨x, ws, hx, -⟩ := arrive_alone hs
        simp [device] at hx
      · obtain rfl : f = d := hwork
        obtain ⟨q', hq', -⟩ := answer_cases hs
        simp [device] at hq'
      · obtain rfl : f = d := (handler_device hh).symm.trans hwork
        obtain ⟨q', k', x, rfl, hk, rfl, rfl⟩ := deliver_of_handler hh he
        obtain ⟨rfl, rfl⟩ : q' = q ∧ k' = w₀.server := by
          rw [device] at hk
          exact (Prod.mk.inj (Option.some.inj hk)).imp Eq.symm Eq.symm
        obtain ⟨⟨app, cs⟩, heff⟩ := Option.isSome_iff_exists.mp (hcall x)
        have hanswers := hP.callback heff
        simp only [device, heff] at hs
        obtain ⟨hdevice, hothers⟩ := settle_alone hs
        obtain ⟨hissued, hfresh⟩ := settle_issued hs
        have hclient : (w'.device f).client = ⟨cs.filterMap Command.written, [], [], []⟩ := by
          rw [hdevice]
          simp [Client.run, hanswers.requested, hanswers.registered]
        apply Phase.completed x app cs heff (issued ▸ hfresh)
        constructor
        · use cs.filterMap Command.written
          rw [← hclient, hdevice]
        · rw [World.view, hclient, settle_server hs, server]
        · rw [hissued, issued]
        · intro g hg
          rw [hothers g hg, others g hg]
  | completed x app cs callback fresh draining =>
      apply Phase.completed x app cs callback fresh
      apply draining_step halone draining he hs

/-- A device that has requested a query while everything else is at rest runs its callback on
what the server stores, and when it is at rest again its writes have arrived. -/
theorem exists_callback (hP : P.Responsive k) (halone : Alone d w₀)
    (hcall : ∀ x, (P.callback q w₀.server x (w₀.device d).app).isSome)
    (hclient : (w₀.device d).client = ⟨[], [q], [], []⟩) {es : List (Event D Action Input)}
    (hes : ∀ e ∈ es, e.Spontaneous ∧ e.Orderly) (hs : Run.exec (step P) w₀ es = some w)
    (hquiet : w.Quiet) :
  ∃ x app cs, P.callback q w₀.server x (w₀.device d).app = some (app, cs)
    ∧ (∀ i ∈ cs.filterMap Command.drawn, i ∉ w₀.issued)
    ∧ w.server = Collection.overlay w₀.server (cs.filterMap Command.written)
    ∧ (w.device d).app = app ∧ ∀ f, f ≠ d → w.device f = w₀.device f
  := by
  have hphase : Phase P w₀ d q w := by
    apply Run.exec_invariant (C := fun _ e => e.Spontaneous ∧ e.Orderly)
      (fun w e w' hw he hs => phase_step hP halone hcall hw he hs) _
      (Run.along_of_forall fun _ => hes) hs
    apply Phase.requested rfl rfl
    · rw [← hclient]
    · intro f _
      rfl
  cases hphase with
  | requested server issued device others => simpa [device] using (hquiet d).2.1
  | answered server issued device others => simpa [device] using (hquiet d).2.2.1
  | completed x app cs callback fresh draining =>
      obtain ⟨ws, hdevice⟩ := draining.device
      use x, app, cs, callback, fresh, draining.server hquiet, by rw [hdevice], draining.others

/-- A device that has issued writes while everything else is at rest is at rest when they have
arrived. -/
theorem server_of_drained (halone : Alone d w₀) {ws : List (Write Id Doc)}
    (hclient : (w₀.device d).client = ⟨ws, [], [], []⟩) {es : List (Event D Action Input)}
    (hes : ∀ e ∈ es, e.Spontaneous ∧ e.Orderly) (hs : Run.exec (step P) w₀ es = some w)
    (hquiet : w.Quiet) :
  w.server = Collection.overlay w₀.server ws ∧ (w.device d).app = (w₀.device d).app
    ∧ ∀ f, f ≠ d → w.device f = w₀.device f
  := by
  have hdraining : Draining w₀ d (w₀.device d).app w₀.issued (Collection.overlay w₀.server ws)
      w := by
    apply Run.exec_invariant (C := fun _ e => e.Spontaneous ∧ e.Orderly)
      (fun w e w' hw he hs => draining_step halone hw he hs) _
      (Run.along_of_forall fun _ => hes) hs
    constructor
    · use ws
      rw [← hclient]
    · rw [World.view, hclient]
    · rfl
    · intro f _
      rfl
  obtain ⟨ws', hdevice⟩ := hdraining.device
  use hdraining.server hquiet, by rw [hdevice], hdraining.others

end Backend

import TaskFirestoreApp.Library.Settling

/-!
# Observers

A listener that is told of its document requests a query. While one write of a document is
under way and everything else is at rest, each device has exactly one answer delivered for each
of its listeners on that document, in whatever order the devices take their steps: `owed` is what
is left of them.
-/

namespace Backend

variable {D App Action Input Id Doc Query Tag : Type*}

/-- A listener that is told of a document requests one query. -/
def Program.Refreshing (P : Program App Action Input Id Doc Query Tag) : Prop :=
  ∀ {g doc app app' cs}, P.listener g (some doc) app = some (app', cs) →
    (cs.filterMap Command.requested).length = 1

/-- The event delivers an answer to the device `f`, in order. -/
def Event.DeliversTo [DecidableEq D] (f : D) (e : Event D Action Input) : Bool :=
  e.delivery = some (f, 0)

namespace Client

variable {c : Client Id Doc Query Tag} {i : Id}

/-- The number of listeners on the document `i`. -/
def observing [DecidableEq Id] (i : Id) (c : Client Id Doc Query Tag) : ℕ :=
  c.listeners.countP fun l => l.doc = i

/-- The answers that are still to be delivered, when each listener that is due requests a
query. -/
def outstanding (c : Client Id Doc Query Tag) : ℕ :=
  c.listeners.countP Listener.due + c.requests.length + c.results.length

/-- The listeners that are due are on `i`. -/
def DueOn (i : Id) (c : Client Id Doc Query Tag) : Prop :=
  ∀ l ∈ c.listeners, l.due → l.doc = i

theorem outstanding_answered {n : ℕ} {r : Query × Collection Id Doc} (h : n < c.requests.length) :
  ({ c with requests := c.requests.eraseIdx n, results := c.results ++ [r] } :
    Client Id Doc Query Tag).outstanding = c.outstanding
  := by
  simp only [outstanding, List.length_eraseIdx_of_lt h, List.length_append, List.length_singleton]
  omega

theorem outstanding_delivered {n : ℕ} (h : n < c.results.length) :
  c.outstanding = ({ c with results := c.results.eraseIdx n } :
    Client Id Doc Query Tag).outstanding + 1
  := by
  simp only [outstanding, List.length_eraseIdx_of_lt h]
  omega

section Told

variable {n : ℕ} {l : Listener Id Tag}

theorem outstanding_told (h : c.listeners[n]? = some l) (hdue : l.due) :
  c.outstanding = ({ c with listeners := c.listeners.set n { l with due := false } } :
    Client Id Doc Query Tag).outstanding + 1
  := by
  obtain ⟨hlt, rfl⟩ := List.getElem?_eq_some_iff.mp h
  have hpos : 0 < c.listeners.countP Listener.due :=
    List.countP_pos_iff.mpr ⟨_, List.getElem_mem hlt, hdue⟩
  simp only [outstanding, List.countP_set hlt, hdue, if_true, Bool.false_eq_true, if_false]
  omega

theorem observing_told [DecidableEq Id] (h : c.listeners[n]? = some l) :
  ({ c with listeners := c.listeners.set n { l with due := false } } :
    Client Id Doc Query Tag).observing i = c.observing i
  := by
  obtain ⟨hlt, rfl⟩ := List.getElem?_eq_some_iff.mp h
  simp only [observing, List.countP_set hlt]
  split_ifs with hdoc
  · have hpos : 0 < c.listeners.countP fun l => l.doc = i :=
      List.countP_pos_iff.mpr ⟨_, List.getElem_mem hlt, hdoc⟩
    omega
  · rfl

theorem DueOn.told (h : c.DueOn i) :
  ({ c with listeners := c.listeners.set n { l with due := false } } :
    Client Id Doc Query Tag).DueOn i
  := by
  intro l' hl' hdue
  rcases List.mem_or_eq_of_mem_set hl' with hl' | rfl
  · apply h l' hl' hdue
  · cases hdue

end Told

section Run

variable {cs : List (Command Id Doc Query Tag)}

theorem outstanding_run (h : cs.filterMap Command.registered = []) :
  (c.run cs).outstanding = c.outstanding + (cs.filterMap Command.requested).length
  := by
  simp only [outstanding, run_listeners, run_requests, run_results, h, List.append_nil,
    List.length_append]
  omega

theorem observing_run [DecidableEq Id] :
  (c.run cs).observing i
    = c.observing i + (cs.filterMap Command.registered).countP fun l => l.doc = i
  := by
  simp [observing, List.countP_append]

end Run

section Notify

variable [DecidableEq Id] [DecidableEq Doc] {v v' : Collection Id Doc}

theorem observing_notify :
  (c.notify v v').observing i = c.observing i
  := by
  simp only [observing, notify, List.countP_map]
  rfl

/-- When nothing but `i` changes exactly the listeners on `i` are due. -/
theorem due_notify (h : c.DueOn i) (hdiff : ∀ j, v.lookup j ≠ v'.lookup j ↔ j = i) :
  (c.notify v v').DueOn i
    ∧ (c.notify v v').outstanding = c.observing i + c.requests.length + c.results.length
  := by
  have hdue : ∀ l ∈ c.listeners, l.due ∨ v.lookup l.doc ≠ v'.lookup l.doc ↔ l.doc = i := by
    intro l hl
    rw [hdiff]
    exact or_iff_right_of_imp (h l hl)
  constructor
  · intro l hl hd
    obtain ⟨l', hl', rfl⟩ := List.mem_map.mp hl
    apply (hdue l' hl').mp
    simpa using hd
  · simp only [outstanding, observing, notify, List.countP_map]
    congr 2
    apply List.countP_congr
    intro l hl
    simpa using hdue l hl

end Notify

end Client

/-! ### One write under way -/

variable [DecidableEq D] [DecidableEq Id] [DecidableEq Doc]
  {P : Program App Action Input Id Doc Query Tag} {w w' : World D App Id Doc Query Tag}
  {e : Event D Action Input} {d f : D} {i : Id}

/-- Nothing but one write of the document `i`, by the device `d`, is under way, and it changes the
document. Before it arrives no listener of another device is due. -/
structure Course (i : Id) (d : D) (w : World D App Id Doc Query Tag) : Prop where
  stored : (w.server.lookup i).isSome
  due : ∀ f, (w.device f).client.DueOn i
  others : ∀ f, f ≠ d → (w.device f).client.unarrived = []
  write : (w.device d).client.unarrived = []
    ∨ ∃ doc, (w.device d).client.unarrived = [.set i doc] ∧ w.server.lookup i ≠ some doc
      ∧ ∀ f, f ≠ d → (w.device f).client.listeners.countP Listener.due = 0

/-- The answers that are still to be delivered to the device `f`, those counted whose queries the
arrival of the write of `d` leads to. -/
def owed (i : Id) (d f : D) (w : World D App Id Doc Query Tag) : ℕ :=
  (w.device f).client.outstanding
    + if f = d ∨ (w.device d).client.unarrived = [] then 0 else (w.device f).client.observing i

omit [DecidableEq D] [DecidableEq Doc] in
theorem Course.isSome_view (h : Course i d w) (f : D) :
  ((w.view f).lookup i).isSome
  := by
  rcases eq_or_ne f d with rfl | hf
  · rcases h.write with hnil | ⟨doc, hdoc, -⟩
    · rw [World.view, hnil]
      apply h.stored
    · rw [World.view, hdoc, Collection.overlay_cons, Collection.overlay_nil, Write.lookup_apply]
      simp [Write.id, Write.doc]
  · rw [World.view, h.others f hf]
    apply h.stored

omit [DecidableEq D] [DecidableEq Doc] in
/-- A step of one device that leaves what is under way in its course. -/
theorem Course.congr (h : Course i d w) (hserver : w'.server = w.server)
    (hunarrived : ∀ f, (w'.device f).client.unarrived = (w.device f).client.unarrived)
    (hdue : ∀ f, (w'.device f).client.DueOn i)
    (hcount : ∀ f, (w.device f).client.listeners.countP Listener.due = 0 →
      (w'.device f).client.listeners.countP Listener.due = 0) :
  Course i d w'
  where
  stored := hserver ▸ h.stored
  due := hdue
  others f hf := by rw [hunarrived, h.others f hf]
  write := by
    rw [hunarrived, hserver]
    rcases h.write with hnil | ⟨doc, hdoc, hne, hothers⟩
    · exact .inl hnil
    · right
      use doc, hdoc, hne
      intro f hf
      apply hcount f (hothers f hf)

omit [DecidableEq Doc] in
/-- A change of the document `i` alone. -/
theorem lookup_set_ne_iff {c : Collection Id Doc} {doc : Doc} (h : c.lookup i ≠ some doc) (j : Id) :
  c.lookup j ≠ ((Write.set i doc).apply c).lookup j ↔ j = i
  := by
  rw [Write.lookup_apply]
  constructor
  · intro hne
    by_contra hj
    apply hne
    rw [if_neg fun hi => hj hi.symm]
  · rintro rfl
    simpa [Write.id, Write.doc] using h

/-- The arrival makes exactly the listeners of the other devices due. -/
theorem course_arrive {g : D} (h : Course i d w) (hs : arrive w g = some w') :
  Course i d w' ∧ ∀ f, (w'.device f).client.observing i = (w.device f).client.observing i
    ∧ owed i d f w = owed i d f w'
  := by
  obtain ⟨x, ws, hx, hw'⟩ := arrive_cases hs
  obtain rfl : g = d := by
    by_contra hg
    simp [h.others g hg] at hx
  rcases h.write with hnil | ⟨doc, hdoc, hne, hcount⟩
  · simp [hnil] at hx
  obtain ⟨rfl, rfl⟩ : x = .set i doc ∧ ws = [] := by
    rw [hdoc] at hx
    exact (List.cons.inj hx).imp Eq.symm Eq.symm
  have hserver : w'.server = (Write.set i doc).apply w.server := by
    rw [hw']
    rfl
  have hself : (w'.device g).client = { (w.device g).client with unarrived := [] } := by
    have hview : w'.view g = w.view g := by
      rw [hw', World.notify_view]
      simp [World.view, hdoc, Collection.overlay_cons, Collection.overlay_nil]
    rw [arrive_client hs g, hview, hw']
    simp [Client.notify]
  have hothers : ∀ f, f ≠ g → (w'.device f).client.unarrived = []
      ∧ (w'.device f).client = (w.device f).client.notify w.server w'.server := by
    intro f hf
    have hunarrived := (arrive_unarrived hs).2 f hf
    rw [h.others f hf] at hunarrived
    have hview : w.view f = w.server := by rw [World.view, h.others f hf, Collection.overlay_nil]
    have hview' : w'.view f = w'.server := by rw [World.view, hunarrived, Collection.overlay_nil]
    use hunarrived
    rw [arrive_client hs f, hview, hview', hunarrived, ← h.others f hf]
  have hdiff := lookup_set_ne_iff hne
  rw [← hserver] at hdiff
  constructor
  · constructor
    · rw [hserver, Write.lookup_apply]
      simp [Write.id, Write.doc]
    · intro f
      rcases eq_or_ne f g with rfl | hf
      · rw [hself]
        apply h.due f
      · rw [(hothers f hf).2]
        apply (Client.due_notify (h.due f) hdiff).1
    · intro f hf
      apply (hothers f hf).1
    · left
      rw [hself]
  · intro f
    rcases eq_or_ne f g with rfl | hf
    · simp [owed, hself, Client.observing, Client.outstanding]
    · have hclient := (hothers f hf).2
      have hcount := hcount f hf
      have hout := (Client.due_notify (h.due f) hdiff).2
      rw [← hclient] at hout
      constructor
      · rw [hclient, Client.observing_notify]
      · have hnot : ¬ (f = g ∨ (w.device g).client.unarrived = []) := by simp [hf, hdoc]
        have harrived : (w'.device g).client.unarrived = [] := by rw [hself]
        rw [owed, owed, if_neg hnot, if_pos (.inr harrived), hout, Client.outstanding, hcount]
        omega

omit [DecidableEq Doc] in
/-- A device whose listeners and writes stay, and that has as much to be delivered but for what an
event delivers. -/
theorem owed_of_client {n : ℕ}
    (hunarrived : ∀ f, (w'.device f).client.unarrived = (w.device f).client.unarrived)
    (hobserving : (w'.device f).client.observing i = (w.device f).client.observing i)
    (houtstanding : (w.device f).client.outstanding = (w'.device f).client.outstanding + n) :
  owed i d f w = owed i d f w' + n
  := by
  rw [owed, owed, hunarrived, hobserving, houtstanding]
  omega

omit [DecidableEq Doc] in
/-- An answer leaves what is owed. -/
theorem course_answer {g : D} {n : ℕ} (h : Course i d w) (hs : answer w g n = some w') :
  Course i d w' ∧ ∀ f, (w'.device f).client.observing i = (w.device f).client.observing i
    ∧ owed i d f w = owed i d f w'
  := by
  have hunarrived := fun f => (answer_device hs f).2.1
  have hlisteners := fun f => (answer_device hs f).2.2
  have hobserving : ∀ f, (w'.device f).client.observing i = (w.device f).client.observing i := by
    intro f
    rw [Client.observing, hlisteners, Client.observing]
  constructor
  · apply h.congr _ hunarrived
    · intro f
      rw [Client.DueOn, hlisteners]
      apply h.due f
    · intro f hf
      rw [hlisteners, hf]
    · obtain ⟨q, -, rfl⟩ := answer_cases hs
      rfl
  · intro f
    use hobserving f
    apply owed_of_client (n := 0) hunarrived (hobserving f)
    rcases eq_or_ne f g with rfl | hf
    · obtain ⟨q, hq, rfl⟩ := answer_cases hs
      obtain ⟨hlt, -⟩ := List.getElem?_eq_some_iff.mp hq
      rw [World.put_device_self, Client.outstanding_answered hlt]
      rfl
    · rw [(answer_results hs).2 f hf]
      rfl

/-- A handler of a query or a listener that does not abort uses up one of what is outstanding when
it delivers an answer, and none when it requests one. -/
theorem course_settle {g : D} {c : Client Id Doc Query Tag} {app : App}
    {cs : List (Command Id Doc Query Tag)} {n : ℕ} (h : Course i d w)
    (hs : settle P w g c (some (app, cs)) = some w')
    (hunarrived : c.unarrived = (w.device g).client.unarrived)
    (hwritten : cs.filterMap Command.written = [])
    (hregistered : cs.filterMap Command.registered = [])
    (hdue : c.DueOn i) (hobserving : c.observing i = (w.device g).client.observing i)
    (hcount : c.listeners.countP Listener.due ≤ (w.device g).client.listeners.countP Listener.due)
    (hn : (w.device g).client.outstanding
      = c.outstanding + (cs.filterMap Command.requested).length + n) :
  Course i d w' ∧ ∀ f, (w'.device f).client.observing i = (w.device f).client.observing i
    ∧ owed i d f w = owed i d f w' + if f = g then n else 0
  := by
  have hself := settle_client hs hunarrived (.inl hwritten)
  have hlisteners : (c.run cs).listeners = c.listeners := by simp [hregistered]
  have hothers : ∀ f, f ≠ g → w'.device f = w.device f := fun f hf => settle_device_of_ne hs hf
  have hwrites : ∀ f, (w'.device f).client.unarrived = (w.device f).client.unarrived := by
    intro f
    rcases eq_or_ne f g with rfl | hf
    · simp [hself, hwritten, hunarrived]
    · rw [hothers f hf]
  have hlistens : ∀ f, (w'.device f).client.observing i = (w.device f).client.observing i := by
    intro f
    rcases eq_or_ne f g with rfl | hf
    · rw [hself, Client.observing, hlisteners, ← hobserving, Client.observing]
    · rw [hothers f hf]
  constructor
  · apply h.congr (settle_server hs) hwrites
    · intro f
      rcases eq_or_ne f g with rfl | hf
      · rw [hself, Client.DueOn, hlisteners]
        apply hdue
      · rw [hothers f hf]
        apply h.due f
    · intro f hf
      rcases eq_or_ne f g with rfl | hne
      · rw [hself, hlisteners]
        omega
      · rw [hothers f hne, hf]
  · intro f
    use hlistens f
    apply owed_of_client hwrites (hlistens f)
    split_ifs with hf
    · subst hf
      rw [hself, Client.outstanding_run hregistered, hn]
    · rw [hothers f hf]
      rfl

/-- No handler aborts its app. -/
def Unaborted (P : Program App Action Input Id Doc Query Tag) (w : World D App Id Doc Query Tag)
    (e : Event D Action Input) : Prop :=
  ∀ f c, handler P w e ≠ some (f, c, none)

/-- An event that happens by itself and in order keeps the listeners and the course of the write,
and what is owed to a device is less by one after an answer is delivered to it. -/
theorem course_step (hP : P.Responsive 0) (hrefreshing : P.Refreshing) (h : Course i d w)
    (he : e.Spontaneous ∧ e.Orderly) (hnone : Unaborted P w e) (hs : step P w e = some w') :
  Course i d w' ∧ ∀ f, (w'.device f).client.observing i = (w.device f).client.observing i
    ∧ owed i d f w = owed i d f w' + if e.DeliversTo f then 1 else 0
  := by
  rcases step_cases hs with ⟨g, rfl, hs⟩ | ⟨g, n, rfl, hs⟩ | ⟨g, c, r, hh, hs⟩
  · apply course_arrive h hs
  · apply course_answer h hs
  cases r with
  | none => exact absurd hh (hnone g c)
  | some eff =>
      obtain ⟨app, cs⟩ := eff
      cases e with
      | act g' a => cases he.1
      | kill g' => cases he.1
      | fail g' n => cases he.2
      | arrive g' => simp [handler] at hh
      | answer g' n => simp [handler] at hh
      | deliver g' n x =>
          obtain rfl : n = 0 := of_decide_eq_true he.2
          obtain ⟨q, v, hr, rfl, rfl, hcall⟩ := handler_deliver.mp hh
          obtain ⟨hlt, -⟩ := List.getElem?_eq_some_iff.mp hr
          have hanswers := hP.callback hcall.symm
          have hwritten := List.length_eq_zero_iff.mp (Nat.le_zero.mp hanswers.written)
          have hsettle := course_settle (n := 1) h hs rfl hwritten hanswers.registered (h.due g')
            rfl le_rfl (by rw [hanswers.requested, Client.outstanding_delivered hlt]; rfl)
          use hsettle.1
          intro f
          obtain ⟨hobserving, howed⟩ := hsettle.2 f
          use hobserving
          simpa [Event.DeliversTo, Event.delivery, eq_comm] using howed
      | snapshot g' n =>
          obtain ⟨l, hl, hdue, rfl, rfl, hcall⟩ := handler_snapshot.mp hh
          obtain ⟨doc, hdoc⟩ := Option.isSome_iff_exists.mp (h.isSome_view g')
          rw [h.due g' l (List.mem_of_getElem? hl) hdue, hdoc] at hcall
          obtain ⟨hwritten, -, hregistered, -⟩ := hP.listener hcall.symm
          obtain ⟨hlt, -⟩ := List.getElem?_eq_some_iff.mp hl
          have hsettle := course_settle (n := 0) h hs rfl hwritten hregistered (h.due g').told
            (Client.observing_told hl)
            (by rw [List.countP_set hlt]; simp)
            (by rw [hrefreshing hcall.symm, Client.outstanding_told hl hdue])
          use hsettle.1
          intro f
          obtain ⟨hobserving, howed⟩ := hsettle.2 f
          use hobserving
          simpa [Event.DeliversTo, Event.delivery] using howed

/-- When everything is at rest again each device has had one answer delivered for each of those
it was owed. -/
theorem deliveries_eq (hP : P.Responsive 0) (hrefreshing : P.Refreshing) (h : Course i d w)
    {es : List (Event D Action Input)}
    (halong : Run.Along (step P) (fun w e => (e.Spontaneous ∧ e.Orderly) ∧ Unaborted P w e) w es)
    (hs : Run.exec (step P) w es = some w') (hquiet : w'.Quiet) (f : D) :
  (w'.device f).client.observing i = (w.device f).client.observing i
    ∧ es.countP (Event.DeliversTo f) = owed i d f w
  := by
  have hstep : ∀ w₁ e w₂, (Course i d w₁
        ∧ (w₁.device f).client.observing i = (w.device f).client.observing i) →
      (e.Spontaneous ∧ e.Orderly) ∧ Unaborted P w₁ e → step P w₁ e = some w₂ →
      (Course i d w₂ ∧ (w₂.device f).client.observing i = (w.device f).client.observing i)
        ∧ owed i d f w₁ = owed i d f w₂ + if e.DeliversTo f then 1 else 0 := by
    rintro w₁ e w₂ ⟨hcourse, hobserving⟩ ⟨he, hunaborted⟩ hs
    obtain ⟨hcourse₂, hall⟩ := course_step hP hrefreshing hcourse he hunaborted hs
    exact ⟨⟨hcourse₂, (hall f).1.trans hobserving⟩, (hall f).2⟩
  obtain ⟨⟨-, hobserving⟩, howed⟩ :=
    Run.countP_of_measure hstep ⟨h, rfl⟩ halong hs
  obtain ⟨-, hrequests, hresults, hdue⟩ := hquiet f
  have hzero : (w'.device f).client.listeners.countP Listener.due = 0 :=
    List.countP_eq_zero.mpr fun l hl => by simp [hdue l hl]
  have hnothing : owed i d f w' = 0 := by
    rw [owed, if_pos (.inr (hquiet d).1), Client.outstanding, hzero, hrequests, hresults]
    rfl
  use hobserving
  rw [howed, hnothing, Nat.zero_add]

/-- A device at rest writes a document and registers listeners on it: each device is owed one
answer for each of its listeners on the document. -/
theorem course_start {app : App} {cs : List (Command Id Doc Query Tag)} {doc : Doc}
    (hquiet : w.Quiet) (hs : settle P w d (w.device d).client (some (app, cs)) = some w')
    (hwritten : cs.filterMap Command.written = [.set i doc])
    (hrequested : cs.filterMap Command.requested = [])
    (hregistered : ∀ l ∈ cs.filterMap Command.registered, l.doc = i)
    (hstored : (w.server.lookup i).isSome) (hne : w.server.lookup i ≠ some doc) :
  Course i d w' ∧ ∀ f, owed i d f w' = (w'.device f).client.observing i
    ∧ (w'.device f).client.observing i = (w.device f).client.observing i
      + if f = d then (cs.filterMap Command.registered).length else 0
  := by
  have hunarrived : (w.device d).client.unarrived = [] := (hquiet d).1
  have hzero : ∀ f, (w.device f).client.listeners.countP Listener.due = 0 := fun f =>
    List.countP_eq_zero.mpr fun l hl => by simp [(hquiet f).2.2.2 l hl]
  have hothers : ∀ f, f ≠ d → w'.device f = w.device f := fun f hf => settle_device_of_ne hs hf
  have hserver := settle_server hs
  have hwrites : (w'.device d).client.unarrived = [.set i doc] := by
    rw [(settle_self hs).2.1, hunarrived, hwritten]
    rfl
  have hself : (w'.device d).client
      = ((w.device d).client.run cs).notify w.server ((Write.set i doc).apply w.server) := by
    rcases settle_cases hs with ⟨hr, -⟩ | ⟨app', cs', hr, -, rfl⟩
    · cases hr
    · cases hr
      simp [World.notify, World.view, hunarrived, hwritten, Collection.overlay_nil,
        Collection.overlay_cons]
  have hdueOn : ((w.device d).client.run cs).DueOn i := by
    intro l hl hdue
    rcases List.mem_append.mp hl with hl | hl
    · rw [(hquiet d).2.2.2 l hl] at hdue
      cases hdue
    · apply hregistered l hl
  obtain ⟨hdue, houtstanding⟩ := Client.due_notify hdueOn (lookup_set_ne_iff hne)
  rw [← hself] at hdue houtstanding
  have hobserving : (w'.device d).client.observing i
      = ((w.device d).client.run cs).observing i := by
    rw [hself, Client.observing_notify]
  constructor
  · constructor
    · rw [hserver]
      apply hstored
    · intro f
      rcases eq_or_ne f d with rfl | hf
      · apply hdue
      · rw [hothers f hf]
        intro l hl hd
        rw [(hquiet f).2.2.2 l hl] at hd
        cases hd
    · intro f hf
      rw [hothers f hf]
      apply (hquiet f).1
    · right
      refine ⟨doc, hwrites, hserver ▸ hne, ?_⟩
      intro f hf
      rw [hothers f hf]
      apply hzero f
  · intro f
    rcases eq_or_ne f d with rfl | hf
    · constructor
      · rw [owed, if_pos (.inl rfl), houtstanding, hobserving]
        simp [(hquiet f).2.1, (hquiet f).2.2.1, hrequested]
      · rw [hobserving, Client.observing_run, if_pos rfl]
        congr 1
        apply List.countP_eq_length.mpr
        intro l hl
        simp [hregistered l hl]
    · rw [owed, if_neg (by simp [hf, hwrites]), hothers f hf, Client.outstanding, hzero,
        (hquiet f).2.1, (hquiet f).2.2.1]
      simp [hf]

end Backend

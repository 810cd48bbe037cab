import TaskFirestoreApp.Library.Collection
import TaskFirestoreApp.Library.Run
import Mathlib.Logic.Function.Basic

/-!
# Clients of a document server

A server holds a collection of documents, and each of its devices runs one app. A device
keeps the writes it has issued in a queue, from which they arrive at the server one by
one, and sees the collection under its own queue. A query is requested, answered with the
collection as the device sees it at that moment, and later delivered to its callback; it
may fail instead. A listener of a document is due an event after it is registered and
after each change of the document as the device sees it.

An app is given by a `Program`: what the user can do, and the callbacks of queries and
listeners. Each handler changes the state of the app and leaves a list of commands for the
device; a handler that has no result aborts the app. An app that is aborted or killed
loses everything but the queue of its writes.

It is an assumption that a device has one queue, and that its writes go on arriving in their
order whatever becomes of the app: after it was killed, and whoever uses it.
-/

namespace Backend

variable {D App Action Input Id Doc Query Tag : Type*}

/-- What a handler asks of the device it runs on. -/
inductive Command (Id Doc Query Tag : Type*) where
  /-- The id of a new document. -/
  | draw (id : Id)
  | write (x : Write Id Doc)
  | get (query : Query)
  | listen (id : Id) (tag : Tag)
  deriving DecidableEq

namespace Command

/-- The id a command draws. -/
def drawn : Command Id Doc Query Tag → Option Id
  | .draw i => some i
  | _ => none

/-- The write a command issues. -/
def written : Command Id Doc Query Tag → Option (Write Id Doc)
  | .write x => some x
  | _ => none

/-- The query a command requests. -/
def requested : Command Id Doc Query Tag → Option Query
  | .get q => some q
  | _ => none

end Command

/-- A registered listener of one document, and whether it is due an event. -/
structure Listener (Id Tag : Type*) where
  doc : Id
  tag : Tag
  due : Bool
  deriving DecidableEq

/-- The listener a command registers. -/
def Command.registered : Command Id Doc Query Tag → Option (Listener Id Tag)
  | .listen i g => some ⟨i, g, true⟩
  | _ => none

/-- The side of a device the server knows: its writes that have not arrived, its
queries that have not been answered, the answers that have not been delivered, in the
order of the moments they describe, and its listeners. -/
structure Client (Id Doc Query Tag : Type*) where
  unarrived : List (Write Id Doc)
  requests : List Query
  results : List (Query × Collection Id Doc)
  listeners : List (Listener Id Tag)

/-- A device: the state of its app and its client. -/
structure Device (App Id Doc Query Tag : Type*) where
  app : App
  client : Client Id Doc Query Tag

/-- The server, the ids handed out so far, and the devices. -/
structure World (D App Id Doc Query Tag : Type*) where
  server : Collection Id Doc
  issued : List Id
  device : D → Device App Id Doc Query Tag

/-- What a handler does: the state it leaves and its commands. -/
abbrev Effect (App Id Doc Query Tag : Type*) : Type _ := App × List (Command Id Doc Query Tag)

/-- An app. The callback of a query is given the collection it was answered with, or is
told that the query failed; that of a listener is given the document, if there is one. -/
structure Program (App Action Input Id Doc Query Tag : Type*) where
  enabled : Action → App → Bool
  act : Action → App → Option (Effect App Id Doc Query Tag)
  callback : Query → Collection Id Doc → Input → App → Option (Effect App Id Doc Query Tag)
  failed : Query → App → Option (Effect App Id Doc Query Tag)
  listener : Tag → Option Doc → App → Option (Effect App Id Doc Query Tag)
  stop : App → App

/-- An event: the user of a device does something, or something happens to a write, a
query, a listener or the app of a device. -/
inductive Event (D Action Input : Type*) where
  | act (d : D) (a : Action)
  | arrive (d : D)
  | answer (d : D) (i : ℕ)
  | deliver (d : D) (i : ℕ) (x : Input)
  | fail (d : D) (i : ℕ)
  | snapshot (d : D) (i : ℕ)
  | kill (d : D)
  deriving DecidableEq

/-- Nothing fails, and answers are delivered in the order of the moments they describe. -/
def Event.Orderly : Event D Action Input → Bool
  | .deliver _ i _ => i = 0
  | .fail _ _ => false
  | _ => true

/-- The device and the place of an answer that is delivered. -/
def Event.delivery : Event D Action Input → Option (D × ℕ)
  | .deliver d i _ => some (d, i)
  | _ => none

theorem Event.delivery_eq_some {e : Event D Action Input} {d : D} {i : ℕ} :
  e.delivery = some (d, i) ↔ ∃ x, e = .deliver d i x
  := by
  constructor
  · intro h
    cases e with
    | deliver d' i' x =>
        obtain ⟨rfl, rfl⟩ := Prod.mk.inj (Option.some.inj h)
        use x
    | _ => cases h
  · rintro ⟨x, rfl⟩
    rfl

namespace Client

/-- The client after a list of commands. -/
def run (c : Client Id Doc Query Tag) (cs : List (Command Id Doc Query Tag)) :
    Client Id Doc Query Tag where
  unarrived := c.unarrived ++ cs.filterMap Command.written
  requests := c.requests ++ cs.filterMap Command.requested
  results := c.results
  listeners := c.listeners ++ cs.filterMap Command.registered

/-- The client of an app that was aborted or killed: only its writes are kept. -/
def restart (c : Client Id Doc Query Tag) : Client Id Doc Query Tag where
  unarrived := c.unarrived
  requests := []
  results := []
  listeners := []

/-- The client with an event due to the listeners of the documents that differ between
the collections `v` and `v'`. -/
def notify [DecidableEq Id] [DecidableEq Doc] (c : Client Id Doc Query Tag)
    (v v' : Collection Id Doc) : Client Id Doc Query Tag where
  unarrived := c.unarrived
  requests := c.requests
  results := c.results
  listeners := c.listeners.map fun l =>
    { l with due := l.due || decide (v.lookup l.doc ≠ v'.lookup l.doc) }

section Run

variable (c : Client Id Doc Query Tag) (cs : List (Command Id Doc Query Tag))

@[simp]
theorem run_unarrived :
  (c.run cs).unarrived = c.unarrived ++ cs.filterMap Command.written
  := rfl

@[simp]
theorem run_requests :
  (c.run cs).requests = c.requests ++ cs.filterMap Command.requested
  := rfl

@[simp]
theorem run_results :
  (c.run cs).results = c.results
  := rfl

@[simp]
theorem run_listeners :
  (c.run cs).listeners = c.listeners ++ cs.filterMap Command.registered
  := rfl

end Run

end Client

namespace World

section View

variable [DecidableEq Id]

/-- The collection as a device sees it. -/
def view (w : World D App Id Doc Query Tag) (d : D) : Collection Id Doc :=
  Collection.overlay w.server (w.device d).client.unarrived

/-- The world `w` with the events that become due when the devices see it instead of
`old`. -/
def notify [DecidableEq Doc] (w old : World D App Id Doc Query Tag) :
    World D App Id Doc Query Tag where
  server := w.server
  issued := w.issued
  device d := { w.device d with client := (w.device d).client.notify (old.view d) (w.view d) }

variable [DecidableEq Doc] {w old : World D App Id Doc Query Tag} {e : D}

@[simp]
theorem notify_server :
  (w.notify old).server = w.server
  := rfl

@[simp]
theorem notify_issued :
  (w.notify old).issued = w.issued
  := rfl

@[simp]
theorem notify_app :
  ((w.notify old).device e).app = (w.device e).app
  := rfl

@[simp]
theorem notify_unarrived :
  ((w.notify old).device e).client.unarrived = (w.device e).client.unarrived
  := rfl

@[simp]
theorem notify_requests :
  ((w.notify old).device e).client.requests = (w.device e).client.requests
  := rfl

@[simp]
theorem notify_results :
  ((w.notify old).device e).client.results = (w.device e).client.results
  := rfl

@[simp]
theorem notify_view :
  (w.notify old).view e = w.view e
  := rfl

end View

variable [DecidableEq D]

/-- The world with another device in the place of `d`. -/
def put (w : World D App Id Doc Query Tag) (d : D) (dev : Device App Id Doc Query Tag) :
    World D App Id Doc Query Tag where
  server := w.server
  issued := w.issued
  device := Function.update w.device d dev

section Lemmas

variable {w : World D App Id Doc Query Tag} {d e : D} {dev : Device App Id Doc Query Tag}

@[simp]
theorem put_server :
  (w.put d dev).server = w.server
  := rfl

@[simp]
theorem put_issued :
  (w.put d dev).issued = w.issued
  := rfl

@[simp]
theorem put_device_self :
  (w.put d dev).device d = dev
  := by
  simp [put]

@[simp]
theorem put_device_of_ne (h : e ≠ d) :
  (w.put d dev).device e = w.device e
  := by
  simp [put, h]

end Lemmas

end World

section Step

variable [DecidableEq D] [DecidableEq Id] [DecidableEq Doc]
  (P : Program App Action Input Id Doc Query Tag)

/-- The handler an event runs, if any: the device, the client the handler finds, and its
effect. A killed app is an aborted one. -/
def handler (w : World D App Id Doc Query Tag) :
    Event D Action Input →
      Option (D × Client Id Doc Query Tag × Option (Effect App Id Doc Query Tag))
  | .act d a =>
      if P.enabled a (w.device d).app then
        some (d, (w.device d).client, P.act a (w.device d).app)
      else
        none
  | .deliver d i x =>
      (w.device d).client.results[i]?.map fun r =>
        (d, { (w.device d).client with results := (w.device d).client.results.eraseIdx i },
          P.callback r.1 r.2 x (w.device d).app)
  | .fail d i =>
      (w.device d).client.requests[i]?.map fun q =>
        (d, { (w.device d).client with requests := (w.device d).client.requests.eraseIdx i },
          P.failed q (w.device d).app)
  | .snapshot d i =>
      ((w.device d).client.listeners[i]?.filter Listener.due).map fun l =>
        (d, { (w.device d).client with
            listeners := (w.device d).client.listeners.set i { l with due := false } },
          P.listener l.tag ((w.view d).lookup l.doc) (w.device d).app)
  | .kill d => some (d, (w.device d).client, none)
  | .arrive _ => none
  | .answer _ _ => none

/-- The world after a handler ran on the device `d` and found the client `c`: the effect
of the handler, when the ids it draws have not been handed out before, or the end of an
aborted app. -/
def settle (w : World D App Id Doc Query Tag) (d : D) (c : Client Id Doc Query Tag) :
    Option (Effect App Id Doc Query Tag) → Option (World D App Id Doc Query Tag)
  | none => some (w.put d ⟨P.stop (w.device d).app, c.restart⟩)
  | some (app, cs) =>
      if ∀ i ∈ cs.filterMap Command.drawn, i ∉ w.issued then
        some (({ w with issued := cs.filterMap Command.drawn ++ w.issued }.put d
          ⟨app, c.run cs⟩).notify w)
      else
        none

/-- The oldest write of the device `d` arrives at the server. -/
def arrive (w : World D App Id Doc Query Tag) (d : D) : Option (World D App Id Doc Query Tag) :=
  match (w.device d).client.unarrived with
  | [] => none
  | x :: ws =>
      some ((({ w with server := x.apply w.server }).put d
        { w.device d with client := { (w.device d).client with unarrived := ws } }).notify w)

/-- The query at `i` of the device `d` is answered with what the device sees now. -/
def answer (w : World D App Id Doc Query Tag) (d : D) (i : ℕ) :
    Option (World D App Id Doc Query Tag) :=
  (w.device d).client.requests[i]?.map fun q =>
    w.put d { w.device d with client := { (w.device d).client with
      requests := (w.device d).client.requests.eraseIdx i
      results := (w.device d).client.results ++ [(q, w.view d)] } }

/-- What an event does to the world, if it can happen. -/
def step (w : World D App Id Doc Query Tag) :
    Event D Action Input → Option (World D App Id Doc Query Tag)
  | .arrive d => arrive w d
  | .answer d i => answer w d i
  | e => (handler P w e).bind fun r => settle P w r.1 r.2.1 r.2.2

variable {P} {w w' : World D App Id Doc Query Tag} {e : Event D Action Input} {d : D}
  {c : Client Id Doc Query Tag} {r : Option (Effect App Id Doc Query Tag)}

section Handler

omit [DecidableEq D] [DecidableEq Doc]

theorem handler_act {d' : D} {a : Action} :
  handler P w (.act d' a) = some (d, c, r)
    ↔ P.enabled a (w.device d).app ∧ d' = d ∧ c = (w.device d).client
      ∧ r = P.act a (w.device d).app
  := by
  simp only [handler, Option.ite_none_right_eq_some, Option.some.injEq, Prod.mk.injEq]
  constructor
  · rintro ⟨h, rfl, rfl, rfl⟩
    use h
  · rintro ⟨h, rfl, rfl, rfl⟩
    use h

theorem handler_deliver {d' : D} {i : ℕ} {x : Input} :
  handler P w (.deliver d' i x) = some (d, c, r)
    ↔ ∃ q k, (w.device d).client.results[i]? = some (q, k) ∧ d' = d
      ∧ c = { (w.device d).client with results := (w.device d).client.results.eraseIdx i }
      ∧ r = P.callback q k x (w.device d).app
  := by
  simp only [handler, Option.map_eq_some_iff, Prod.mk.injEq, Prod.exists]
  constructor
  · rintro ⟨q, k, h, rfl, rfl, rfl⟩
    use q, k, h
  · rintro ⟨q, k, h, rfl, rfl, rfl⟩
    use q, k, h

theorem handler_fail {d' : D} {i : ℕ} :
  handler P w (.fail d' i) = some (d, c, r)
    ↔ ∃ q, (w.device d).client.requests[i]? = some q ∧ d' = d
      ∧ c = { (w.device d).client with requests := (w.device d).client.requests.eraseIdx i }
      ∧ r = P.failed q (w.device d).app
  := by
  simp only [handler, Option.map_eq_some_iff, Prod.mk.injEq]
  constructor
  · rintro ⟨q, h, rfl, rfl, rfl⟩
    use q, h
  · rintro ⟨q, h, rfl, rfl, rfl⟩
    use q, h

theorem handler_snapshot {d' : D} {i : ℕ} :
  handler P w (.snapshot d' i) = some (d, c, r)
    ↔ ∃ l, (w.device d).client.listeners[i]? = some l ∧ l.due ∧ d' = d
      ∧ c = { (w.device d).client with
          listeners := (w.device d).client.listeners.set i { l with due := false } }
      ∧ r = P.listener l.tag ((w.view d).lookup l.doc) (w.device d).app
  := by
  simp only [handler, Option.map_eq_some_iff, Option.filter_eq_some_iff, Prod.mk.injEq]
  constructor
  · rintro ⟨l, ⟨h, hdue⟩, rfl, rfl, rfl⟩
    use l, h, hdue
  · rintro ⟨l, h, hdue, rfl, rfl, rfl⟩
    use l, ⟨h, hdue⟩

theorem handler_kill {d' : D} :
  handler P w (.kill d') = some (d, c, r) ↔ d' = d ∧ c = (w.device d).client ∧ r = none
  := by
  simp only [handler, Option.some.injEq, Prod.mk.injEq]
  constructor
  · rintro ⟨rfl, rfl, rfl⟩
    exact ⟨rfl, rfl, rfl⟩
  · rintro ⟨rfl, rfl, rfl⟩
    exact ⟨rfl, rfl, rfl⟩

/-- A handler finds the writes of its device as they are, and of its queries and answers
those that are left. -/
theorem handler_client (h : handler P w e = some (d, c, r)) :
  c.unarrived = (w.device d).client.unarrived
    ∧ c.requests ⊆ (w.device d).client.requests
    ∧ c.results ⊆ (w.device d).client.results
  := by
  cases e with
  | act d' a =>
      obtain ⟨-, -, rfl, -⟩ := handler_act.mp h
      exact ⟨rfl, List.Subset.refl _, List.Subset.refl _⟩
  | deliver d' i x =>
      obtain ⟨_, _, -, -, rfl, -⟩ := handler_deliver.mp h
      exact ⟨rfl, List.Subset.refl _, (List.eraseIdx_sublist _ _).subset⟩
  | fail d' i =>
      obtain ⟨_, -, -, rfl, -⟩ := handler_fail.mp h
      exact ⟨rfl, (List.eraseIdx_sublist _ _).subset, List.Subset.refl _⟩
  | snapshot d' i =>
      obtain ⟨_, -, -, -, rfl, -⟩ := handler_snapshot.mp h
      exact ⟨rfl, List.Subset.refl _, List.Subset.refl _⟩
  | kill d' =>
      obtain ⟨-, rfl, -⟩ := handler_kill.mp h
      exact ⟨rfl, List.Subset.refl _, List.Subset.refl _⟩
  | arrive d' => simp [handler] at h
  | answer d' i => simp [handler] at h

/-- A handler finds the listeners of its device, at most with one of them no longer due. -/
theorem handler_listeners (h : handler P w e = some (d, c, r)) {l : Listener Id Tag}
    (hl : l ∈ c.listeners) :
  ∃ l' ∈ (w.device d).client.listeners, l'.doc = l.doc ∧ l'.tag = l.tag
  := by
  cases e with
  | act d' a =>
      obtain ⟨-, -, rfl, -⟩ := handler_act.mp h
      use l, hl
  | deliver d' i x =>
      obtain ⟨_, _, -, -, rfl, -⟩ := handler_deliver.mp h
      use l, hl
  | fail d' i =>
      obtain ⟨_, -, -, rfl, -⟩ := handler_fail.mp h
      use l, hl
  | snapshot d' i =>
      obtain ⟨l', hl', -, rfl, rfl, -⟩ := handler_snapshot.mp h
      rcases List.mem_or_eq_of_mem_set hl with hl | rfl
      · use l, hl
      · use l', List.mem_of_getElem? hl'
  | kill d' =>
      obtain ⟨-, rfl, -⟩ := handler_kill.mp h
      use l, hl
  | arrive d' => simp [handler] at h
  | answer d' i => simp [handler] at h

end Handler

/-- What a step can be: the arrival of a write, the answer of a query, or the run of a
handler. -/
theorem step_cases (h : step P w e = some w') :
  (∃ d, e = .arrive d ∧ arrive w d = some w')
    ∨ (∃ d i, e = .answer d i ∧ answer w d i = some w')
    ∨ ∃ d c r, handler P w e = some (d, c, r) ∧ settle P w d c r = some w'
  := by
  cases e with
  | arrive d => exact .inl ⟨d, rfl, h⟩
  | answer d i => exact .inr (.inl ⟨d, i, rfl, h⟩)
  | _ =>
      simp only [step, Option.bind_eq_some_iff] at h
      obtain ⟨⟨d, c, r⟩, hr, h⟩ := h
      right
      right
      use d, c, r, hr, h

/-- An event that runs a handler does what the handler does. -/
theorem step_of_handler (h : handler P w e = some (d, c, r)) :
  step P w e = settle P w d c r
  := by
  cases e with
  | arrive d' => simp [handler] at h
  | answer d' i => simp [handler] at h
  | _ => simp only [step, h, Option.bind_some]

theorem arrive_cases (h : arrive w d = some w') :
  ∃ x ws, (w.device d).client.unarrived = x :: ws ∧
    w' = (({ w with server := x.apply w.server }).put d
      { w.device d with client := { (w.device d).client with unarrived := ws } }).notify w
  := by
  unfold arrive at h
  split at h
  · cases h
  · next x ws hx => exact ⟨x, ws, hx, (Option.some.inj h).symm⟩

omit [DecidableEq Doc] in
theorem answer_cases {i : ℕ} (h : answer w d i = some w') :
  ∃ q, (w.device d).client.requests[i]? = some q ∧
    w' = w.put d { w.device d with client := { (w.device d).client with
      requests := (w.device d).client.requests.eraseIdx i
      results := (w.device d).client.results ++ [(q, w.view d)] } }
  := by
  obtain ⟨q, hq, rfl⟩ := Option.map_eq_some_iff.mp h
  use q, hq

theorem settle_cases (h : settle P w d c r = some w') :
  (r = none ∧ w' = w.put d ⟨P.stop (w.device d).app, c.restart⟩)
    ∨ ∃ app cs, r = some (app, cs) ∧ (∀ i ∈ cs.filterMap Command.drawn, i ∉ w.issued) ∧
      w' = (({ w with issued := cs.filterMap Command.drawn ++ w.issued }).put d
        ⟨app, c.run cs⟩).notify w
  := by
  cases r with
  | none => exact .inl ⟨rfl, (Option.some.inj h).symm⟩
  | some eff =>
      simp only [settle, Option.ite_none_right_eq_some, Option.some.injEq] at h
      right
      exact ⟨eff.1, eff.2, rfl, h.1, h.2.symm⟩

theorem settle_issued {app : App} {cs : List (Command Id Doc Query Tag)}
    (h : settle P w d c (some (app, cs)) = some w') :
  w'.issued = cs.filterMap Command.drawn ++ w.issued
    ∧ ∀ i ∈ cs.filterMap Command.drawn, i ∉ w.issued
  := by
  rcases settle_cases h with ⟨hr, -⟩ | ⟨app', cs', hr, hfresh, rfl⟩
  · cases hr
  · cases hr
    exact ⟨rfl, hfresh⟩

theorem drawn_issued {app : App} {cs : List (Command Id Doc Query Tag)} {i : Id}
    (h : settle P w d c (some (app, cs)) = some w') (hi : i ∈ cs.filterMap Command.drawn) :
  i ∈ w'.issued
  := by
  rw [(settle_issued h).1]
  apply List.mem_append_left _ hi

/-- The ids a handler draws differ from ids that have been handed out. -/
theorem nodup_append_drawn {app : App} {cs : List (Command Id Doc Query Tag)} {ids : List Id}
    (hids : ids.Nodup) (hissued : ∀ i ∈ ids, i ∈ w.issued)
    (h : settle P w d c (some (app, cs)) = some w') (hcs : (cs.filterMap Command.drawn).Nodup) :
  (ids ++ cs.filterMap Command.drawn).Nodup
    ∧ ∀ i ∈ ids ++ cs.filterMap Command.drawn, i ∈ w'.issued
  := by
  obtain ⟨heq, hfresh⟩ := settle_issued h
  constructor
  · apply List.nodup_append.mpr ⟨hids, hcs, _⟩
    rintro i hi j hj rfl
    apply hfresh i hj (hissued i hi)
  · intro i hi
    rw [heq]
    rcases List.mem_append.mp hi with hi | hi
    · apply List.mem_append_right _ (hissued i hi)
    · apply List.mem_append_left _ hi

/-- An id that has been handed out stays so. -/
theorem step_issued (h : step P w e = some w') :
  w.issued ⊆ w'.issued
  := by
  rcases step_cases h with ⟨f, rfl, h⟩ | ⟨f, i, rfl, h⟩ | ⟨f, c, r, hr, h⟩
  · obtain ⟨x, ws, -, rfl⟩ := arrive_cases h
    apply List.Subset.refl _
  · obtain ⟨q, -, rfl⟩ := answer_cases h
    apply List.Subset.refl _
  · rcases settle_cases h with ⟨-, rfl⟩ | ⟨app, cs, -, -, rfl⟩
    · apply List.Subset.refl _
    · apply List.subset_append_right _ _

/-- An id that has been handed out was handed out before, or is drawn by the handler. -/
theorem mem_issued_step (h : step P w e = some w') {i : Id} (hi : i ∈ w'.issued) :
  i ∈ w.issued
    ∨ ∃ d c app cs, handler P w e = some (d, c, some (app, cs))
      ∧ settle P w d c (some (app, cs)) = some w' ∧ i ∈ cs.filterMap Command.drawn
  := by
  rcases step_cases h with ⟨f, rfl, h⟩ | ⟨f, j, rfl, h⟩ | ⟨f, c, r, hr, h⟩
  · obtain ⟨x, ws, -, rfl⟩ := arrive_cases h
    left
    apply hi
  · obtain ⟨q, -, rfl⟩ := answer_cases h
    left
    apply hi
  · cases r with
    | none =>
        obtain rfl := Option.some.inj h.symm
        left
        apply hi
    | some eff =>
        rw [(settle_issued h).1] at hi
        rcases List.mem_append.mp hi with hi | hi
        · exact .inr ⟨f, c, eff.1, eff.2, hr, h, hi⟩
        · left
          apply hi

/-! ### What a step does to a device -/

/-- An arrival leaves the apps, their queries and their answers as they are. -/
theorem arrive_device (h : arrive w d = some w') (f : D) :
  (w'.device f).app = (w.device f).app
    ∧ (w'.device f).client.requests = (w.device f).client.requests
    ∧ (w'.device f).client.results = (w.device f).client.results
  := by
  obtain ⟨x, ws, -, rfl⟩ := arrive_cases h
  rcases eq_or_ne f d with rfl | hf
  · simp
  · simp [hf]

/-- An arrival takes the oldest write of its device away. -/
theorem arrive_unarrived (h : arrive w d = some w') :
  (∃ x, (w.device d).client.unarrived = x :: (w'.device d).client.unarrived)
    ∧ ∀ f, f ≠ d → (w'.device f).client.unarrived = (w.device f).client.unarrived
  := by
  obtain ⟨x, ws, hx, rfl⟩ := arrive_cases h
  constructor
  · use x
    simp [hx]
  · intro f hf
    simp [hf]

theorem mem_arrive_listeners (h : arrive w d = some w') {f : D} {l : Listener Id Tag}
    (hl : l ∈ (w'.device f).client.listeners) :
  ∃ l' ∈ (w.device f).client.listeners, l'.doc = l.doc ∧ l'.tag = l.tag
  := by
  obtain ⟨x, ws, -, rfl⟩ := arrive_cases h
  obtain ⟨l', hl', rfl⟩ := List.mem_map.mp hl
  refine ⟨l', ?_, rfl, rfl⟩
  rcases eq_or_ne f d with rfl | hf
  · simpa using hl'
  · simpa [hf] using hl'

omit [DecidableEq Doc] in
/-- An answer leaves the apps, their writes and their listeners as they are. -/
theorem answer_device {i : ℕ} (h : answer w d i = some w') (f : D) :
  (w'.device f).app = (w.device f).app
    ∧ (w'.device f).client.unarrived = (w.device f).client.unarrived
    ∧ (w'.device f).client.listeners = (w.device f).client.listeners
  := by
  obtain ⟨q, -, rfl⟩ := answer_cases h
  rcases eq_or_ne f d with rfl | hf
  · simp
  · simp [hf]

omit [DecidableEq Doc] in
/-- An answer to a query is what its device sees. -/
theorem answer_results {i : ℕ} (h : answer w d i = some w') :
  (∃ q ∈ (w.device d).client.requests,
      (w'.device d).client.requests ⊆ (w.device d).client.requests
      ∧ (w'.device d).client.results = (w.device d).client.results ++ [(q, w.view d)])
    ∧ ∀ f, f ≠ d → w'.device f = w.device f
  := by
  obtain ⟨q, hq, rfl⟩ := answer_cases h
  constructor
  · use q, List.mem_of_getElem? hq
    rw [World.put_device_self]
    exact ⟨(List.eraseIdx_sublist _ _).subset, rfl⟩
  · intro f hf
    simp [hf]

omit [DecidableEq D] in
/-- A device that sees what it saw is not notified. -/
theorem notify_device (h : w'.view d = w.view d) :
  (w'.notify w).device d = w'.device d
  := by
  simp [World.notify, Client.notify, h]

/-- A handler changes its own device only. -/
theorem settle_device_of_ne {f : D} {r : Option (Effect App Id Doc Query Tag)}
    (h : settle P w d c r = some w') (hf : f ≠ d) :
  w'.device f = w.device f
  := by
  rcases settle_cases h with ⟨-, rfl⟩ | ⟨app, cs, -, -, rfl⟩
  · simp [hf]
  · rw [notify_device]
    · simp [hf]
    · simp [World.view, hf]

omit [DecidableEq D] in
/-- A world that is seen as before is not notified. -/
theorem notify_self :
  w.notify w = w
  := by
  simp [World.notify, Client.notify]

/-- A handler that leaves its app as it is and gives no command does nothing. -/
theorem settle_of_nil
    (h : settle P w d (w.device d).client (some ((w.device d).app, [])) = some w') :
  w' = w
  := by
  rcases settle_cases h with ⟨hr, -⟩ | ⟨app, cs, hr, -, rfl⟩
  · cases hr
  · cases hr
    have hput : ({ w with issued := [] ++ w.issued }.put d
        ⟨(w.device d).app, (w.device d).client.run []⟩) = w := by
      simp [World.put, Client.run]
    simp only [List.filterMap_nil]
    rw [hput, notify_self]

theorem settle_server {r : Option (Effect App Id Doc Query Tag)}
    (h : settle P w d c r = some w') :
  w'.server = w.server
  := by
  rcases settle_cases h with ⟨-, rfl⟩ | ⟨app, cs, -, -, rfl⟩
  · rfl
  · rfl

/-- A handler changes what its own device sees only. -/
theorem settle_view_of_ne {f : D} {r : Option (Effect App Id Doc Query Tag)}
    (h : settle P w d c r = some w') (hf : f ≠ d) :
  w'.view f = w.view f
  := by
  rw [World.view, settle_server h, settle_device_of_ne h hf]
  rfl

/-- What is left of a device whose app is aborted or killed. -/
theorem settle_self_none (h : settle P w d c none = some w') :
  w'.device d = ⟨P.stop (w.device d).app, c.restart⟩
  := by
  rcases settle_cases h with ⟨-, rfl⟩ | ⟨app, cs, hr, -⟩
  · simp
  · cases hr

/-- What a handler leaves of its own device. -/
theorem settle_self {app : App} {cs : List (Command Id Doc Query Tag)}
    (h : settle P w d c (some (app, cs)) = some w') :
  (w'.device d).app = app
    ∧ (w'.device d).client.unarrived = c.unarrived ++ cs.filterMap Command.written
    ∧ (w'.device d).client.requests = c.requests ++ cs.filterMap Command.requested
    ∧ (w'.device d).client.results = c.results
  := by
  rcases settle_cases h with ⟨hr, -⟩ | ⟨app', cs', hr, -, rfl⟩
  · cases hr
  · cases hr
    simp

/-- A step whose handler has no result ends the app. -/
theorem device_of_aborted (hh : handler P w e = some (d, c, none)) (hs : step P w e = some w') :
  w'.device d = ⟨P.stop (w.device d).app, c.restart⟩
  := settle_self_none ((step_of_handler hh).symm.trans hs)

/-- The app a handler leaves is the one after the step. -/
theorem app_of_handler {app : App} {cs : List (Command Id Doc Query Tag)}
    (hh : handler P w e = some (d, c, some (app, cs))) (hs : step P w e = some w') :
  (w'.device d).app = app
  := (settle_self ((step_of_handler hh).symm.trans hs)).1

theorem mem_settle_listeners {app : App} {cs : List (Command Id Doc Query Tag)}
    (h : settle P w d c (some (app, cs)) = some w') {l : Listener Id Tag}
    (hl : l ∈ (w'.device d).client.listeners) :
  ∃ l' ∈ c.listeners ++ cs.filterMap Command.registered, l'.doc = l.doc ∧ l'.tag = l.tag
  := by
  rcases settle_cases h with ⟨hr, -⟩ | ⟨app', cs', hr, -, rfl⟩
  · cases hr
  · cases hr
    obtain ⟨l', hl', rfl⟩ := List.mem_map.mp hl
    exact ⟨l', by simpa using hl', rfl, rfl⟩

/-- A handler that writes nothing leaves its device as its commands make it. -/
theorem settle_device_of_written {app : App} {cs : List (Command Id Doc Query Tag)}
    (h : settle P w d c (some (app, cs)) = some w')
    (hc : c.unarrived = (w.device d).client.unarrived) (hcs : cs.filterMap Command.written = []) :
  w'.device d = ⟨app, c.run cs⟩ ∧ w'.view d = w.view d
  := by
  rcases settle_cases h with ⟨hr, -⟩ | ⟨app', cs', hr, -, rfl⟩
  · cases hr
  · cases hr
    have hview : (({ w with issued := cs.filterMap Command.drawn ++ w.issued }.put d
        ⟨app, c.run cs⟩).view d) = w.view d := by
      simp [World.view, hcs, hc]
    rw [notify_device hview]
    exact ⟨by simp, hview⟩

/-- A handler adds its writes to the queue of its device. -/
theorem settle_unarrived {r : Option (Effect App Id Doc Query Tag)}
    (h : settle P w d c r = some w') (hc : c.unarrived = (w.device d).client.unarrived) :
  (w'.device d).client.unarrived = (w.device d).client.unarrived
    ++ r.elim [] fun eff => eff.2.filterMap Command.written
  := by
  cases r with
  | none =>
      rw [settle_self_none h]
      simp [Client.restart, hc]
  | some eff => rw [(settle_self h).2.1, hc, Option.elim_some]

/-! ### What a step does to everything a device holds -/

/-- A step takes the oldest write of a device away when it is its arrival, and adds writes
at the end otherwise. -/
theorem step_unarrived (h : step P w e = some w') (d : D) :
  (e = .arrive d ∧ ∃ x, (w.device d).client.unarrived = x :: (w'.device d).client.unarrived)
    ∨ e ≠ .arrive d ∧ ∃ ws, (w'.device d).client.unarrived = (w.device d).client.unarrived ++ ws
  := by
  rcases step_cases h with ⟨f, rfl, h⟩ | ⟨f, i, rfl, h⟩ | ⟨f, c, r, hr, h⟩
  · obtain ⟨hself, hothers⟩ := arrive_unarrived h
    rcases eq_or_ne d f with rfl | hd
    · left
      exact ⟨rfl, hself⟩
    · right
      exact ⟨fun he => hd (Event.arrive.inj he).symm, [], by simp [hothers d hd]⟩
  · right
    exact ⟨by simp, [], by simp [(answer_device h d).2.1]⟩
  · refine .inr ⟨?_, ?_⟩
    · rintro rfl
      simp [handler] at hr
    · rcases eq_or_ne d f with rfl | hd
      · exact ⟨_, settle_unarrived h (handler_client hr).1⟩
      · exact ⟨[], by simp [settle_device_of_ne h hd]⟩

/-- A write in a queue was there before the step, or the handler issued it. -/
theorem mem_unarrived_step (h : step P w e = some w') {x : Write Id Doc}
    (hx : x ∈ (w'.device d).client.unarrived) :
  x ∈ (w.device d).client.unarrived
    ∨ ∃ c app cs, handler P w e = some (d, c, some (app, cs))
      ∧ settle P w d c (some (app, cs)) = some w' ∧ x ∈ cs.filterMap Command.written
  := by
  rcases step_cases h with ⟨f, rfl, h⟩ | ⟨f, i, rfl, h⟩ | ⟨f, c, r, hr, h⟩
  · obtain ⟨⟨y, hy⟩, hothers⟩ := arrive_unarrived h
    rcases eq_or_ne d f with rfl | hd
    · rw [hy]
      left
      apply List.mem_cons_of_mem _ hx
    · left
      apply hothers d hd ▸ hx
  · left
    apply (answer_device h d).2.1 ▸ hx
  · rcases eq_or_ne d f with rfl | hd
    · rw [settle_unarrived h (handler_client hr).1, List.mem_append] at hx
      rcases hx with hx | hx
      · left
        apply hx
      · cases r with
        | none => cases hx
        | some eff => exact .inr ⟨c, eff.1, eff.2, hr, h, hx⟩
    · left
      apply settle_device_of_ne h hd ▸ hx

/-- A step leaves the app of a device as it is, stops it, or runs a handler on it. -/
theorem app_step (h : step P w e = some w') (d : D) :
  (w'.device d).app = (w.device d).app
    ∨ (w'.device d).app = P.stop (w.device d).app
    ∨ ∃ c cs, handler P w e = some (d, c, some ((w'.device d).app, cs))
      ∧ settle P w d c (some ((w'.device d).app, cs)) = some w'
  := by
  rcases step_cases h with ⟨f, -, h⟩ | ⟨f, i, -, h⟩ | ⟨f, c, r, hr, h⟩
  · left
    apply (arrive_device h d).1
  · left
    apply (answer_device h d).1
  · rcases eq_or_ne d f with rfl | hd
    · cases r with
      | none => exact .inr (.inl (by rw [settle_self_none h]))
      | some eff =>
          obtain ⟨app, cs⟩ := eff
          rw [(settle_self h).1]
          right
          right
          use c, cs, hr, h
    · left
      rw [settle_device_of_ne h hd]

/-- A listener was there before the step, or the handler registered it. -/
theorem mem_listeners_step (h : step P w e = some w') {l : Listener Id Tag}
    (hl : l ∈ (w'.device d).client.listeners) :
  (∃ l' ∈ (w.device d).client.listeners, l'.doc = l.doc ∧ l'.tag = l.tag)
    ∨ ∃ c app cs, handler P w e = some (d, c, some (app, cs))
      ∧ ∃ l' ∈ cs.filterMap Command.registered, l'.doc = l.doc ∧ l'.tag = l.tag
  := by
  rcases step_cases h with ⟨f, -, h⟩ | ⟨f, i, -, h⟩ | ⟨f, c, r, hr, h⟩
  · left
    apply mem_arrive_listeners h hl
  · rw [(answer_device h d).2.2] at hl
    left
    use l, hl
  · rcases eq_or_ne d f with rfl | hd
    · cases r with
      | none => simp [settle_self_none h, Client.restart] at hl
      | some eff =>
          obtain ⟨l', hl', hdoc, htag⟩ := mem_settle_listeners h hl
          rcases List.mem_append.mp hl' with hl' | hl'
          · obtain ⟨l'', hl'', hdoc', htag'⟩ := handler_listeners hr hl'
            left
            use l'', hl'', hdoc'.trans hdoc, htag'.trans htag
          · right
            use c, eff.1, eff.2, hr, l', hl', hdoc, htag
    · rw [settle_device_of_ne h hd] at hl
      left
      use l, hl

/-- A query was there before the step, or the handler requested it. -/
theorem mem_requests_step (h : step P w e = some w') {q : Query}
    (hq : q ∈ (w'.device d).client.requests) :
  q ∈ (w.device d).client.requests
    ∨ ∃ c app cs, handler P w e = some (d, c, some (app, cs))
      ∧ q ∈ cs.filterMap Command.requested
  := by
  rcases step_cases h with ⟨f, -, h⟩ | ⟨f, i, -, h⟩ | ⟨f, c, r, hr, h⟩
  · left
    apply (arrive_device h d).2.1 ▸ hq
  · obtain ⟨⟨_, -, hrequests, -⟩, hothers⟩ := answer_results h
    left
    rcases eq_or_ne d f with rfl | hd
    · apply hrequests hq
    · apply hothers d hd ▸ hq
  · rcases eq_or_ne d f with rfl | hd
    · cases r with
      | none => simp [settle_self_none h, Client.restart] at hq
      | some eff =>
          rw [(settle_self h).2.2.1] at hq
          rcases List.mem_append.mp hq with hq | hq
          · left
            apply (handler_client hr).2.1 hq
          · right
            use c, eff.1, eff.2, hr, hq
    · exact .inl (settle_device_of_ne h hd ▸ hq)

/-- An answer was there before the step, or is what its device saw when it asked. -/
theorem mem_results_step (h : step P w e = some w') {r : Query × Collection Id Doc}
    (hr : r ∈ (w'.device d).client.results) :
  r ∈ (w.device d).client.results ∨ r.1 ∈ (w.device d).client.requests ∧ r.2 = w.view d
  := by
  rcases step_cases h with ⟨f, -, h⟩ | ⟨f, i, -, h⟩ | ⟨f, c, eff, hh, h⟩
  · left
    apply (arrive_device h d).2.2 ▸ hr
  · obtain ⟨⟨q, hq, -, hresults⟩, hothers⟩ := answer_results h
    rcases eq_or_ne d f with rfl | hd
    · rw [hresults, List.mem_append, List.mem_singleton] at hr
      apply hr.imp_right
      rintro rfl
      exact ⟨hq, rfl⟩
    · left
      apply hothers d hd ▸ hr
  · rcases eq_or_ne d f with rfl | hd
    · cases eff with
      | none => simp [settle_self_none h, Client.restart] at hr
      | some eff =>
          rw [(settle_self h).2.2.2] at hr
          left
          apply (handler_client hh).2.2 hr
    · exact .inl (settle_device_of_ne h hd ▸ hr)

/-- A step leaves the server as it is, or a write arrives there. -/
theorem server_step (h : step P w e = some w') :
  w'.server = w.server
    ∨ ∃ d, ∃ x ∈ (w.device d).client.unarrived, w'.server = x.apply w.server
  := by
  rcases step_cases h with ⟨d, -, h⟩ | ⟨d, i, -, h⟩ | ⟨d, c, r, -, h⟩
  · obtain ⟨x, ws, hx, rfl⟩ := arrive_cases h
    right
    exact ⟨d, x, hx ▸ List.mem_cons_self, rfl⟩
  · obtain ⟨q, -, rfl⟩ := answer_cases h
    left
    rfl
  · left
    apply settle_server h

/-! ### Arrivals -/

/-- The writes of a device can arrive. -/
theorem exists_exec_arrive (P : Program App Action Input Id Doc Query Tag)
    (w : World D App Id Doc Query Tag) (d : D) :
  ∃ n w', Run.exec (step P) w (List.replicate n (.arrive d)) = some w'
    ∧ (w'.device d).client.unarrived = []
    ∧ ∀ f, f ≠ d → (w'.device f).client.unarrived = (w.device f).client.unarrived
  := by
  induction hws : (w.device d).client.unarrived generalizing w with
  | nil => exact ⟨0, w, rfl, hws, fun _ _ => rfl⟩
  | cons x ws ih =>
      obtain ⟨w₁, hs⟩ : ∃ w₁, arrive w d = some w₁ := by simp [arrive, hws]
      obtain ⟨y, ws', hy, hw₁⟩ := arrive_cases hs
      obtain ⟨rfl, rfl⟩ := List.cons.inj (hws.symm.trans hy)
      obtain ⟨n, w', hw', hnil, hothers⟩ := ih w₁ (by simp [hw₁])
      use n + 1, w'
      constructor
      · exact Run.exec_cons_iff.mpr ⟨w₁, hs, hw'⟩
      · use hnil
        intro f hf
        rw [hothers f hf, hw₁]
        simp [hf]

/-- A write that is under way at first and not at the end has arrived in between. -/
theorem exists_arrived {es : List (Event D Action Input)} {x : Write Id Doc}
    (hs : Run.exec (step P) w es = some w') (hx : x ∈ (w.device d).client.unarrived)
    (hnil : (w'.device d).client.unarrived = []) :
  ∃ es₁ es₂ w₁, es = es₁ ++ es₂ ∧ Run.exec (step P) w es₁ = some w₁
    ∧ w₁.server.lookup x.id = x.doc
  := by
  induction es generalizing w with
  | nil =>
      obtain rfl : w = w' := by simpa using hs
      simp [hnil] at hx
  | cons e es ih =>
      obtain ⟨w₁, hw₁, hes⟩ := Run.exec_cons_iff.mp hs
      -- it arrives at once, or it is still under way after the first step
      by_cases hx₁ : x ∈ (w₁.device d).client.unarrived
      · obtain ⟨es₁, es₂, w₂, rfl, hw₂, hlookup⟩ := ih hes hx₁
        exact ⟨e :: es₁, es₂, w₂, rfl, Run.exec_cons_iff.mpr ⟨w₁, hw₁, hw₂⟩, hlookup⟩
      · rcases step_unarrived hw₁ d with ⟨rfl, y, hy⟩ | ⟨-, ws, hws⟩
        · obtain rfl : x = y := by
            rw [hy, List.mem_cons] at hx
            apply hx.resolve_right hx₁
          refine ⟨[.arrive d], es, w₁, rfl, Run.exec_cons_iff.mpr ⟨w₁, hw₁, rfl⟩, ?_⟩
          obtain ⟨y, ws, hy', rfl⟩ := arrive_cases hw₁
          obtain ⟨rfl, -⟩ := List.cons.inj (hy.symm.trans hy')
          rw [World.notify_server, World.put_server, Write.lookup_apply, if_pos rfl]
        · rw [hws] at hx₁
          exact absurd (List.mem_append_left _ hx) hx₁

variable [DecidableEq Action] [DecidableEq Input]

/-- A write at place `n` of the queue of `d` arrives with the arrival after `n` others. What
its arrival establishes, and every step keeps, holds from then on. -/
theorem exec_of_arrived {C : World D App Id Doc Query Tag → Event D Action Input → Prop}
    {I Q : World D App Id Doc Query Tag → Prop} {x : Write Id Doc} {n : ℕ}
    {es : List (Event D Action Input)}
    (hI : ∀ w e w', I w → C w e → step P w e = some w' → I w')
    (harrive : ∀ w w' ws, I w → (w.device d).client.unarrived = x :: ws →
      step P w (.arrive d) = some w' → Q w')
    (hQ : ∀ w e w', I w → Q w → C w e → step P w e = some w' → Q w')
    (h : I w) (hx : (w.device d).client.unarrived[n]? = some x)
    (hC : Run.Along (step P) C w es) (hs : Run.exec (step P) w es = some w')
    (hn : n < es.count (.arrive d)) :
  Q w'
  := by
  induction es generalizing w n with
  | nil => simp at hn
  | cons e es ih =>
      obtain ⟨w₁, hw₁, hes⟩ := Run.exec_cons_iff.mp hs
      obtain ⟨hCe, hCs⟩ := (Run.along_cons hw₁).mp hC
      have hI₁ := hI w e w₁ h hCe hw₁
      rcases step_unarrived hw₁ d with ⟨rfl, y, hy⟩ | ⟨he, ws, hws⟩
      · cases n with
        | zero =>
            obtain rfl : y = x := by simpa [hy] using hx
            have hQ₁ := harrive w w₁ _ h hy hw₁
            apply (Run.exec_invariant (I := fun w => I w ∧ Q w) _ ⟨hI₁, hQ₁⟩ hCs hes).2
            rintro w e w' ⟨hIw, hQw⟩ hCw hw
            use hI w e w' hIw hCw hw, hQ w e w' hIw hQw hCw hw
        | succ n =>
            apply ih hI₁ _ hCs hes
            · simpa using hn
            · simpa [hy] using hx
      · apply ih hI₁ _ hCs hes
        · rwa [List.count_cons_of_ne (by simpa using he)] at hn
        · obtain ⟨hlt, -⟩ := List.getElem?_eq_some_iff.mp hx
          rw [hws, List.getElem?_append_left hlt, hx]

end Step

end Backend

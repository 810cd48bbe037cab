import TaskFirestoreApp.Library.Backend
import Mathlib.Data.PEquiv

/-!
# Parts of an app

An app may consist of parts that share its process, its screens and its queue of writes, but
neither documents nor queries. A `Selection` says what of the whole app belongs to a part, and
what is left of a world and of an event when the part alone is looked at. It is a `Part` of the
program of the whole app when every handler of the whole does to the part what a handler of the
part does, or nothing. Then `Part.run`: a run of the whole app, looked at so, is a run of the
part. Whatever aborts the whole app kills the part.
-/

namespace List

variable {α β : Type*} {f : α → Option β} {l : List α} {i : ℕ} {a a' : α} {b b' : β}

/-- The place in `l.filterMap f` of what the element at `i` becomes. -/
def place (f : α → Option β) (l : List α) (i : ℕ) : ℕ :=
  ((l.take i).filterMap f).length

theorem place_append (l₁ l₂ : List α) :
  place f (l₁ ++ l₂) l₁.length = (l₁.filterMap f).length
  := by
  rw [place, take_left' rfl]

theorem exists_split (h : l[i]? = some a) :
  ∃ l₁ l₂, l = l₁ ++ a :: l₂ ∧ i = l₁.length
  := by
  obtain ⟨hlt, rfl⟩ := getElem?_eq_some_iff.mp h
  use l.take i, l.drop (i + 1)
  constructor
  · rw [getElem_cons_drop, take_append_drop]
  · rw [length_take, Nat.min_eq_left hlt.le]

theorem filterMap_getElem?_place (h : l[i]? = some a) (hf : f a = some b) :
  (l.filterMap f)[place f l i]? = some b
  := by
  obtain ⟨l₁, l₂, rfl, rfl⟩ := exists_split h
  simp [place_append, hf]

theorem filterMap_eraseIdx_place (h : l[i]? = some a) (hf : f a = some b) :
  (l.eraseIdx i).filterMap f = (l.filterMap f).eraseIdx (place f l i)
  := by
  obtain ⟨l₁, l₂, rfl, rfl⟩ := exists_split h
  simp [place_append, hf, eraseIdx_append_of_length_le]

theorem filterMap_eraseIdx_of_none (h : l[i]? = some a) (hf : f a = none) :
  (l.eraseIdx i).filterMap f = l.filterMap f
  := by
  obtain ⟨l₁, l₂, rfl, rfl⟩ := exists_split h
  simp [hf, eraseIdx_append_of_length_le]

theorem filterMap_set_place (h : l[i]? = some a) (hf : f a = some b) (hf' : f a' = some b') :
  (l.set i a').filterMap f = (l.filterMap f).set (place f l i) b'
  := by
  obtain ⟨l₁, l₂, rfl, rfl⟩ := exists_split h
  simp [place_append, hf, hf']

theorem filterMap_set_of_none (h : l[i]? = some a) (hf : f a = none) (hf' : f a' = none) :
  (l.set i a').filterMap f = l.filterMap f
  := by
  obtain ⟨l₁, l₂, rfl, rfl⟩ := exists_split h
  simp [hf, hf']

end List

namespace Collection

variable {Id Id' Doc : Type*} {f : Id ≃. Id'} {c : Collection Id Doc} {i : Id} {i' : Id'}

/-- What an entry of a collection becomes when its id becomes `f` of it. -/
def renamed (f : Id ≃. Id') (x : Σ _ : Id, Doc) : Option (Σ _ : Id', Doc) :=
  (f x.1).map fun i => ⟨i, x.2⟩

theorem renamed_of_some (h : f i = some i') (doc : Doc) :
  renamed f ⟨i, doc⟩ = some ⟨i', doc⟩
  := by
  rw [renamed, h, Option.map_some]

theorem renamed_of_none (h : f i = none) (doc : Doc) :
  renamed f ⟨i, doc⟩ = none
  := by
  rw [renamed, h, Option.map_none]

theorem keys_renamed (f : Id ≃. Id') (l : List (Σ _ : Id, Doc)) :
  (l.filterMap (renamed f)).keys = l.keys.filterMap f
  := by
  simp only [List.keys, List.map_filterMap, List.filterMap_map]
  congr 1
  funext x
  cases hx : f x.1 <;> simp [renamed, hx]

/-- The documents of the ids that are in the domain of `f`, under the ids they become. -/
def restrict (f : Id ≃. Id') (c : Collection Id Doc) : Collection Id' Doc where
  entries := c.entries.filterMap (renamed f)
  nodupKeys := by
    rw [List.NodupKeys, keys_renamed]
    apply List.Nodup.filterMap _ c.nodupKeys
    intro i j k hi hj
    apply f.inj hi hj

theorem entries_restrict :
  (restrict f c).entries = c.entries.filterMap (renamed f)
  := rfl

variable [DecidableEq Id] [DecidableEq Id']

theorem lookup_restrict (h : f i = some i') :
  (restrict f c).lookup i' = c.lookup i
  := by
  simp only [AList.lookup, entries_restrict]
  induction c.entries with
  | nil => rfl
  | cons x l ih =>
      obtain ⟨j, doc⟩ := x
      by_cases hj : i = j
      · subst hj
        rw [List.filterMap_cons_some (renamed_of_some h doc), List.dlookup_cons_eq,
          List.dlookup_cons_eq]
      · rw [List.dlookup_cons_ne l ⟨j, doc⟩ hj, ← ih]
        cases hfj : f j with
        | none => rw [List.filterMap_cons_none (renamed_of_none hfj doc)]
        | some j' =>
            have hij : i' ≠ j' := by
              rintro rfl
              apply hj (f.inj h hfj)
            rw [List.filterMap_cons_some (renamed_of_some hfj doc)]
            exact List.dlookup_cons_ne (l.filterMap (renamed f)) ⟨j', doc⟩ hij

/-- Taking the entry of an id away takes the entry of what it becomes away. -/
theorem filterMap_kerase (l : List (Σ _ : Id, Doc)) :
  (l.kerase i).filterMap (renamed f)
    = (f i).elim (l.filterMap (renamed f)) fun i' => (l.filterMap (renamed f)).kerase i'
  := by
  induction l with
  | nil => cases f i <;> rfl
  | cons x l ih =>
      obtain ⟨j, doc⟩ := x
      by_cases hj : i = j
      · subst hj
        rw [List.kerase_cons_eq (by rfl)]
        cases hfi : f i with
        | none => rw [List.filterMap_cons_none (renamed_of_none hfi doc), Option.elim_none]
        | some i' =>
            rw [List.filterMap_cons_some (renamed_of_some hfi doc), Option.elim_some,
              List.kerase_cons_eq (by rfl)]
      · rw [List.kerase_cons_ne (by exact hj)]
        cases hfj : f j with
        | none =>
            rw [List.filterMap_cons_none (renamed_of_none hfj doc),
              List.filterMap_cons_none (renamed_of_none hfj doc), ih]
        | some j' =>
            rw [List.filterMap_cons_some (renamed_of_some hfj doc),
              List.filterMap_cons_some (renamed_of_some hfj doc), ih]
            cases hfi : f i with
            | none => rfl
            | some i' =>
                rw [Option.elim_some, Option.elim_some, List.kerase_cons_ne]
                rintro rfl
                apply hj (f.inj hfi hfj)

theorem restrict_insert (h : f i = some i') (doc : Doc) :
  restrict f (c.insert i doc) = (restrict f c).insert i' doc
  := by
  apply AList.ext
  simp only [entries_restrict, AList.entries_insert]
  rw [List.filterMap_cons_some (renamed_of_some h doc), filterMap_kerase, h,
    Option.elim_some]

theorem restrict_insert_of_none (h : f i = none) (doc : Doc) :
  restrict f (c.insert i doc) = restrict f c
  := by
  apply AList.ext
  simp only [entries_restrict, AList.entries_insert]
  rw [List.filterMap_cons_none (renamed_of_none h doc), filterMap_kerase, h, Option.elim_none]

theorem entries_erase :
  (c.erase i).entries = c.entries.kerase i
  := rfl

theorem restrict_erase (h : f i = some i') :
  restrict f (c.erase i) = (restrict f c).erase i'
  := by
  apply AList.ext
  rw [entries_erase, entries_restrict, entries_restrict, entries_erase, filterMap_kerase, h,
    Option.elim_some]

theorem restrict_erase_of_none (h : f i = none) :
  restrict f (c.erase i) = restrict f c
  := by
  apply AList.ext
  rw [entries_restrict, entries_restrict, entries_erase]
  rw [filterMap_kerase, h, Option.elim_none]

end Collection

namespace Backend

variable {D App Action Input Id Doc Query Tag App' Action' Input' Id' Query' Tag' : Type*}

/-- What of a whole app belongs to a part of it. -/
structure Selection (App Action Input Id Query Tag App' Action' Input' Id' Query' Tag' : Type*)
    where
  app : App → App'
  action : Action → Option Action'
  input : Input → Input'
  id : Id ≃. Id'
  query : Query → Option Query'
  tag : Tag → Option Tag'

namespace Selection

variable (S : Selection App Action Input Id Query Tag App' Action' Input' Id' Query' Tag')

/-- The write of a part. -/
def write : Write Id Doc → Option (Write Id' Doc)
  | .set i doc => (S.id i).map fun i => .set i doc
  | .delete i => (S.id i).map .delete

/-- The command of a part. A listener is one of the part when its document and its tag are. -/
def command : Command Id Doc Query Tag → Option (Command Id' Doc Query' Tag')
  | .draw i => (S.id i).map .draw
  | .write x => (S.write x).map .write
  | .get q => (S.query q).map .get
  | .listen i g => (S.id i).bind fun i => (S.tag g).map fun g => .listen i g

/-- The listener of a part. -/
def listener (l : Listener Id Tag) : Option (Listener Id' Tag') :=
  (S.id l.doc).bind fun i => (S.tag l.tag).map fun g => ⟨i, g, l.due⟩

def result (r : Query × Collection Id Doc) : Option (Query' × Collection Id' Doc) :=
  (S.query r.1).map fun q => (q, Collection.restrict S.id r.2)

/-- What an effect is for a part. -/
def effect (eff : Effect App Id Doc Query Tag) : Effect App' Id' Doc Query' Tag' :=
  (S.app eff.1, eff.2.filterMap S.command)

def client (c : Client Id Doc Query Tag) : Client Id' Doc Query' Tag' where
  unarrived := c.unarrived.filterMap S.write
  requests := c.requests.filterMap S.query
  results := c.results.filterMap S.result
  listeners := c.listeners.filterMap S.listener

def device (dev : Device App Id Doc Query Tag) : Device App' Id' Doc Query' Tag' where
  app := S.app dev.app
  client := S.client dev.client

/-- The world of a part. -/
def world (w : World D App Id Doc Query Tag) : World D App' Id' Doc Query' Tag' where
  server := Collection.restrict S.id w.server
  issued := w.issued.filterMap S.id
  device d := S.device (w.device d)

/-- The listeners that the commands register have a document and a tag of the part, or
neither. -/
def Fits (cs : List (Command Id Doc Query Tag)) : Prop :=
  ∀ l ∈ cs.filterMap Command.registered, (S.id l.doc).isSome = (S.tag l.tag).isSome

end Selection

/-- An app is a part of a whole one when the handlers of the whole do to it what its own
handlers do, or nothing. -/
structure Part (P : Program App Action Input Id Doc Query Tag)
    (P' : Program App' Action' Input' Id' Doc Query' Tag')
    extends Selection App Action Input Id Query Tag App' Action' Input' Id' Query' Tag' where
  enabled : ∀ {a a' app}, P.enabled a app → action a = some a' →
    P'.enabled a' (toSelection.app app)
  act : ∀ {a app eff}, P.enabled a app → P.act a app = some eff →
    toSelection.Fits eff.2 ∧ (action a).elim (toSelection.effect eff = (toSelection.app app, []))
      fun a => P'.act a (toSelection.app app) = some (toSelection.effect eff)
  callback : ∀ {q c x app eff}, P.callback q c x app = some eff →
    toSelection.Fits eff.2 ∧ (query q).elim (toSelection.effect eff = (toSelection.app app, []))
      fun q => P'.callback q (Collection.restrict id c) (input x) (toSelection.app app)
        = some (toSelection.effect eff)
  failed : ∀ {q app eff}, P.failed q app = some eff →
    toSelection.Fits eff.2 ∧ (query q).elim (toSelection.effect eff = (toSelection.app app, []))
      fun q => P'.failed q (toSelection.app app) = some (toSelection.effect eff)
  listens : ∀ {g doc app eff}, P.listener g doc app = some eff →
    toSelection.Fits eff.2 ∧ (tag g).elim (toSelection.effect eff = (toSelection.app app, []))
      fun g => P'.listener g doc (toSelection.app app) = some (toSelection.effect eff)
  stop : ∀ app, toSelection.app (P.stop app) = P'.stop (toSelection.app app)

namespace Selection

variable {S : Selection App Action Input Id Query Tag App' Action' Input' Id' Query' Tag'}
  {x : Write Id Doc} {ws : List (Write Id Doc)} {cs : List (Command Id Doc Query Tag)}
  {c : Client Id Doc Query Tag} {v v' : Collection Id Doc}

theorem listener_of_some {i : Id} {g : Tag} {i' : Id'} {g' : Tag'} (hi : S.id i = some i')
    (hg : S.tag g = some g') (due : Bool) :
  S.listener ⟨i, g, due⟩ = some ⟨i', g', due⟩
  := by
  rw [listener, hi, Option.bind_some, hg, Option.map_some]

theorem filterMap_comm {α β γ δ : Type*} {f : α → Option β} {g : β → Option δ} {f' : α → Option γ}
    {g' : γ → Option δ} (h : ∀ a, (f a).bind g = (f' a).bind g') (l : List α) :
  (l.filterMap f).filterMap g = (l.filterMap f').filterMap g'
  := by
  rw [List.filterMap_filterMap, List.filterMap_filterMap]
  congr 1
  funext a
  apply h

theorem filterMap_drawn :
  (cs.filterMap S.command).filterMap Command.drawn = (cs.filterMap Command.drawn).filterMap S.id
  := by
  apply filterMap_comm
  intro a
  cases a with
  | draw i => cases h : S.id i <;> simp [command, Command.drawn, h]
  | write x => cases h : S.write x <;> simp [command, Command.drawn, h]
  | get q => cases h : S.query q <;> simp [command, Command.drawn, h]
  | listen i g => cases h : S.id i <;> cases h' : S.tag g <;> simp [command, Command.drawn, h, h']

theorem filterMap_written :
  (cs.filterMap S.command).filterMap Command.written
    = (cs.filterMap Command.written).filterMap S.write
  := by
  apply filterMap_comm
  intro a
  cases a with
  | draw i => cases h : S.id i <;> simp [command, Command.written, h]
  | write x => cases h : S.write x <;> simp [command, Command.written, h]
  | get q => cases h : S.query q <;> simp [command, Command.written, h]
  | listen i g => cases h : S.id i <;> cases h' : S.tag g <;> simp [command, Command.written, h, h']

theorem filterMap_requested :
  (cs.filterMap S.command).filterMap Command.requested
    = (cs.filterMap Command.requested).filterMap S.query
  := by
  apply filterMap_comm
  intro a
  cases a with
  | draw i => cases h : S.id i <;> simp [command, Command.requested, h]
  | write x => cases h : S.write x <;> simp [command, Command.requested, h]
  | get q => cases h : S.query q <;> simp [command, Command.requested, h]
  | listen i g =>
      cases h : S.id i <;> cases h' : S.tag g <;> simp [command, Command.requested, h, h']

theorem filterMap_registered :
  (cs.filterMap S.command).filterMap Command.registered
    = (cs.filterMap Command.registered).filterMap S.listener
  := by
  apply filterMap_comm
  intro a
  cases a with
  | draw i => cases h : S.id i <;> simp [command, Command.registered, h]
  | write x => cases h : S.write x <;> simp [command, Command.registered, h]
  | get q => cases h : S.query q <;> simp [command, Command.registered, h]
  | listen i g =>
      cases h : S.id i <;> cases h' : S.tag g <;>
        simp [command, listener, Command.registered, h, h']

theorem client_run :
  S.client (c.run cs) = (S.client c).run (cs.filterMap S.command)
  := by
  simp only [client, Client.run, List.filterMap_append, filterMap_written, filterMap_requested,
    filterMap_registered]

theorem client_restart :
  S.client c.restart = (S.client c).restart
  := rfl

variable [DecidableEq Id] [DecidableEq Id']

theorem restrict_apply :
  Collection.restrict S.id (x.apply v)
    = (S.write x).elim (Collection.restrict S.id v) fun y => y.apply (Collection.restrict S.id v)
  := by
  cases x with
  | set i doc =>
      cases h : S.id i with
      | none => simp [write, Write.apply, h, Collection.restrict_insert_of_none h]
      | some j => simp [write, Write.apply, h, Collection.restrict_insert h]
  | delete i =>
      cases h : S.id i with
      | none => simp [write, Write.apply, h, Collection.restrict_erase_of_none h]
      | some j => simp [write, Write.apply, h, Collection.restrict_erase h]

/-- What a device sees of a part under its writes is what it sees under those of the part. -/
theorem restrict_overlay :
  Collection.restrict S.id (Collection.overlay v ws)
    = Collection.overlay (Collection.restrict S.id v) (ws.filterMap S.write)
  := by
  induction ws generalizing v with
  | nil => rfl
  | cons x ws ih =>
      rw [Collection.overlay_cons, ih, restrict_apply]
      cases hx : S.write x with
      | none => rw [List.filterMap_cons_none hx, Option.elim_none]
      | some y => rw [List.filterMap_cons_some hx, Collection.overlay_cons, Option.elim_some]

theorem client_notify [DecidableEq Doc] :
  S.client (c.notify v v')
    = (S.client c).notify (Collection.restrict S.id v) (Collection.restrict S.id v')
  := by
  simp only [client, Client.notify, Client.mk.injEq, true_and]
  rw [List.filterMap_map, List.map_filterMap]
  congr 1
  funext l
  cases hi : S.id l.doc with
  | none => simp [listener, hi]
  | some i =>
      cases hg : S.tag l.tag with
      | none => simp [listener, hi, hg]
      | some g =>
          simp [listener, hi, hg, Collection.lookup_restrict hi]

variable {w old : World D App Id Doc Query Tag} {d : D}

theorem world_view :
  (S.world w).view d = Collection.restrict S.id (w.view d)
  := restrict_overlay.symm

theorem world_notify [DecidableEq Doc] :
  S.world (w.notify old) = (S.world w).notify (S.world old)
  := by
  simp only [world, World.notify, World.mk.injEq, true_and]
  funext e
  simp only [device, client_notify, Device.mk.injEq, true_and]
  rw [← world_view, ← world_view]
  rfl

omit [DecidableEq Id] [DecidableEq Id'] in
theorem world_put [DecidableEq D] (dev : Device App Id Doc Query Tag) :
  S.world (w.put d dev) = (S.world w).put d (S.device dev)
  := by
  simp only [world, World.put, World.mk.injEq, true_and]
  funext e
  rcases eq_or_ne e d with rfl | he
  · simp
  · simp [he]

omit [DecidableEq Id] [DecidableEq Id'] in
/-- An id that is fresh for the whole app is fresh for the part. -/
theorem notMem_issued (hfresh : ∀ i ∈ cs.filterMap Command.drawn, i ∉ w.issued) :
  ∀ i ∈ (cs.filterMap S.command).filterMap Command.drawn, i ∉ (S.world w).issued
  := by
  intro i' hi' hissued
  rw [filterMap_drawn] at hi'
  obtain ⟨i, hi, heq⟩ := List.mem_filterMap.mp hi'
  obtain ⟨j, hj, heq'⟩ := List.mem_filterMap.mp hissued
  obtain rfl : i = j := S.id.inj heq heq'
  apply hfresh i hi hj

end Selection

/-! ### The events of a part -/

section Event

variable [DecidableEq Id]

/-- What an event that aborts nothing is for a part. -/
def Selection.eventOf
    (S : Selection App Action Input Id Query Tag App' Action' Input' Id' Query' Tag')
    (w : World D App Id Doc Query Tag) : Event D Action Input → Option (Event D Action' Input')
  | .act d a => (S.action a).map (.act d)
  | .arrive d => ((w.device d).client.unarrived.head?.bind S.write).map fun _ => .arrive d
  | .answer d i => ((w.device d).client.requests[i]?.bind S.query).map fun _ =>
      .answer d ((w.device d).client.requests.place S.query i)
  | .deliver d i x => ((w.device d).client.results[i]?.bind S.result).map fun _ =>
      .deliver d ((w.device d).client.results.place S.result i) (S.input x)
  | .fail d i => ((w.device d).client.requests[i]?.bind S.query).map fun _ =>
      .fail d ((w.device d).client.requests.place S.query i)
  | .snapshot d i => ((w.device d).client.listeners[i]?.bind S.listener).map fun _ =>
      .snapshot d ((w.device d).client.listeners.place S.listener i)
  | .kill d => some (.kill d)

/-- What an event is for a part: it is killed with the whole app. -/
def Part.event {P : Program App Action Input Id Doc Query Tag}
    {P' : Program App' Action' Input' Id' Doc Query' Tag'} (Q : Part P P')
    (w : World D App Id Doc Query Tag) (e : Event D Action Input) :
    Option (Event D Action' Input') :=
  match handler P w e with
  | some (d, _, none) => some (.kill d)
  | _ => Q.eventOf w e

end Event

namespace Part

variable [DecidableEq Id] [DecidableEq Id'] {P : Program App Action Input Id Doc Query Tag}
  {P' : Program App' Action' Input' Id' Doc Query' Tag'} (Q : Part P P')
  {w w' : World D App Id Doc Query Tag} {e : Event D Action Input} {d : D}
  {c : Client Id Doc Query Tag}

/-- The listeners of the devices have a document and a tag of the part, or neither. -/
def Fitting (w : World D App Id Doc Query Tag) : Prop :=
  ∀ d, ∀ l ∈ (w.device d).client.listeners, (Q.id l.doc).isSome = (Q.tag l.tag).isSome

/-- What a handler of the whole app is for the part: a handler of the part that event runs, or
nothing. -/
theorem handler_world (hfit : Q.Fitting w) {eff : Effect App Id Doc Query Tag}
    (hh : handler P w e = some (d, c, some eff)) :
  Q.Fits eff.2
    ∧ (Q.eventOf w e).elim
        (Q.client c = Q.client (w.device d).client ∧ Q.effect eff = (Q.app (w.device d).app, []))
        fun e' => handler P' (Q.world w) e' = some (d, Q.client c, some (Q.effect eff))
  := by
  cases e with
  | act d' a =>
      obtain ⟨henabled, rfl, rfl, hact⟩ := handler_act.mp hh
      obtain ⟨hfits, heff⟩ := Q.act henabled hact.symm
      use hfits
      cases ha : Q.action a with
      | none =>
          rw [ha] at heff
          simpa [Selection.eventOf, ha] using heff
      | some a' =>
          rw [ha] at heff
          simp only [Selection.eventOf, ha, Option.map_some, Option.elim_some]
          apply handler_act.mpr ⟨Q.enabled henabled ha, rfl, rfl, heff.symm⟩
  | deliver d' i x =>
      obtain ⟨q, k, hr, rfl, rfl, hcall⟩ := handler_deliver.mp hh
      obtain ⟨hfits, heff⟩ := Q.callback hcall.symm
      use hfits
      simp only [Selection.eventOf, hr, Option.bind_some]
      cases hq : Q.query q with
      | none =>
          have hnone : Q.result (q, k) = none := by simp [Selection.result, hq]
          rw [hq] at heff
          simp only [hnone, Option.map_none, Option.elim_none]
          refine ⟨?_, heff⟩
          simp [Selection.client, List.filterMap_eraseIdx_of_none hr hnone]
      | some q' =>
          have hsome : Q.result (q, k) = some (q', Collection.restrict Q.id k) := by
            simp [Selection.result, hq]
          rw [hq] at heff
          simp only [hsome, Option.map_some, Option.elim_some]
          refine handler_deliver.mpr ⟨q', _, List.filterMap_getElem?_place hr hsome, rfl, ?_,
            heff.symm⟩
          simp [Selection.client, Selection.world, Selection.device,
            List.filterMap_eraseIdx_place hr hsome]
  | fail d' i =>
      obtain ⟨q, hr, rfl, rfl, hcall⟩ := handler_fail.mp hh
      obtain ⟨hfits, heff⟩ := Q.failed hcall.symm
      use hfits
      simp only [Selection.eventOf, hr, Option.bind_some]
      cases hq : Q.query q with
      | none =>
          rw [hq] at heff
          simp only [Option.map_none, Option.elim_none]
          refine ⟨?_, heff⟩
          simp [Selection.client, List.filterMap_eraseIdx_of_none hr hq]
      | some q' =>
          rw [hq] at heff
          simp only [Option.map_some, Option.elim_some]
          refine handler_fail.mpr ⟨q', List.filterMap_getElem?_place hr hq, rfl, ?_, heff.symm⟩
          simp [Selection.client, Selection.world, Selection.device,
            List.filterMap_eraseIdx_place hr hq]
  | snapshot d' i =>
      obtain ⟨l, hl, hdue, rfl, rfl, hcall⟩ := handler_snapshot.mp hh
      obtain ⟨hfits, heff⟩ := Q.listens hcall.symm
      use hfits
      have hboth := hfit d' l (List.mem_of_getElem? hl)
      simp only [Selection.eventOf, hl, Option.bind_some]
      cases hi : Q.id l.doc with
      | none =>
          have htag : Q.tag l.tag = none := by
            rw [← Option.isNone_iff_eq_none, ← Option.isSome_eq_false_iff, ← hboth, hi]
            rfl
          have hnone : Q.listener l = none := by simp [Selection.listener, hi]
          rw [htag] at heff
          simp only [hnone, Option.map_none, Option.elim_none]
          refine ⟨?_, heff⟩
          rw [Selection.client, Selection.client, List.filterMap_set_of_none hl hnone]
          simp [Selection.listener, hi]
      | some j =>
          obtain ⟨g, hg⟩ : ∃ g, Q.tag l.tag = some g := by
            apply Option.isSome_iff_exists.mp
            rw [← hboth, hi]
            rfl
          have hsome := Selection.listener_of_some hi hg l.due
          have hsome' := Selection.listener_of_some hi hg false
          rw [hg] at heff
          simp only [hsome, Option.map_some, Option.elim_some]
          refine handler_snapshot.mpr ⟨⟨j, g, l.due⟩, List.filterMap_getElem?_place hl hsome, hdue,
            rfl, ?_, ?_⟩
          · simp [Selection.client, Selection.world, Selection.device,
              List.filterMap_set_place hl hsome hsome']
          · rw [Selection.world_view, Collection.lookup_restrict hi]
            exact heff.symm
  | kill d' => simp [handler] at hh
  | arrive d' => simp [handler] at hh
  | answer d' i => simp [handler] at hh

omit [DecidableEq Id'] in
theorem event_of_none (hh : handler P w e = some (d, c, none)) :
  Q.event w e = some (.kill d)
  := by
  rw [event, hh]

omit [DecidableEq Id'] in
theorem event_of_some {eff : Effect App Id Doc Query Tag}
    (hh : handler P w e = some (d, c, some eff)) :
  Q.event w e = Q.eventOf w e
  := by
  rw [event, hh]

omit [DecidableEq Id'] in
theorem event_of_no_handler (hh : handler P w e = none) :
  Q.event w e = Q.eventOf w e
  := by
  rw [event, hh]

omit [DecidableEq Id'] in
/-- An answer that is delivered to the part is one that is delivered to the whole app. -/
theorem event_delivery {e' : Event D Action' Input'} {p : D × ℕ} (h : Q.event w e = some e')
    (hp : e'.delivery = some p) :
  ∃ i r r', e.delivery = some (p.1, i) ∧ (w.device p.1).client.results[i]? = some r
    ∧ Q.result r = some r' ∧ ((Q.world w).device p.1).client.results[p.2]? = some r'
  := by
  obtain ⟨x', rfl⟩ := Event.delivery_eq_some.mp hp
  have heventOf : Q.eventOf w e = some (.deliver p.1 p.2 x') := by
    unfold event at h
    split at h
    · cases h
    · exact h
  cases e with
  | deliver d i x =>
      obtain ⟨r', hr', heq⟩ := Option.map_eq_some_iff.mp heventOf
      obtain ⟨r, hr, hresult⟩ := Option.bind_eq_some_iff.mp hr'
      obtain ⟨rfl, hplace, -⟩ := Event.deliver.inj heq
      use i, r, r', rfl, hr, hresult
      rw [← hplace]
      apply List.filterMap_getElem?_place hr hresult
  | act d a | arrive d | answer d i | fail d i | snapshot d i =>
      obtain ⟨_, -, heq⟩ := Option.map_eq_some_iff.mp heventOf
      cases heq
  | kill d => cases heventOf

variable [DecidableEq D] [DecidableEq Doc]

/-- What settles in the whole app settles in the part. -/
theorem settle_world {r : Option (Effect App Id Doc Query Tag)}
    (h : settle P w d c r = some w') :
  settle P' (Q.world w) d (Q.client c) (r.map Q.effect) = some (Q.world w')
  := by
  rcases settle_cases h with ⟨rfl, rfl⟩ | ⟨app, cs, rfl, hfresh, rfl⟩
  · rw [Selection.world_put, Option.map_none, settle]
    congr 2
    simp [Selection.device, Selection.client_restart, Q.stop, Selection.world]
  · rw [Option.map_some, settle, Selection.effect, if_pos (Selection.notMem_issued hfresh)]
    rw [Selection.world_notify, Selection.world_put]
    congr 3
    · simp [Selection.world, Selection.filterMap_drawn]
    · rw [Selection.device, Selection.client_run]

omit [DecidableEq Id] [DecidableEq Id'] [DecidableEq Doc] in
/-- A world does not change when a device of it is put in its own place. -/
theorem put_self :
  w.put d (w.device d) = w
  := by
  simp [World.put]

/-- A write of another part arrives without being noticed. -/
theorem arrive_world_of_none {x : Write Id Doc} {ws : List (Write Id Doc)}
    (hx : (w.device d).client.unarrived = x :: ws) (hnone : Q.write x = none) :
  Q.world ((({ w with server := x.apply w.server }).put d
    { w.device d with client := { (w.device d).client with unarrived := ws } }).notify w)
      = Q.world w
  := by
  have hserver : Q.world { w with server := x.apply w.server } = Q.world w := by
    simp [Selection.world, Selection.restrict_apply, hnone]
  have hdevice : Q.device { w.device d with
      client := { (w.device d).client with unarrived := ws } } = (Q.world w).device d := by
    simp [Selection.world, Selection.device, Selection.client, hx, hnone]
  rw [Selection.world_notify, Selection.world_put, hserver, hdevice, put_self, notify_self]

/-- A write of the part arrives. -/
theorem arrive_world {x : Write Id Doc} {ws : List (Write Id Doc)} {y : Write Id' Doc}
    (hx : (w.device d).client.unarrived = x :: ws) (hy : Q.write x = some y) :
  arrive (Q.world w) d = some (Q.world ((({ w with server := x.apply w.server }).put d
    { w.device d with client := { (w.device d).client with unarrived := ws } }).notify w))
  := by
  have hunarrived : ((Q.world w).device d).client.unarrived = y :: ws.filterMap Q.write := by
    simp [Selection.world, Selection.device, Selection.client, hx, hy]
  rw [Selection.world_notify, Selection.world_put]
  simp only [arrive, hunarrived]
  congr 3
  simp [Selection.world, Selection.restrict_apply, hy]

omit [DecidableEq Id'] [DecidableEq Doc] in
/-- The answer of a query of another part is not noticed. -/
theorem answer_world_of_none {q : Query} {i : ℕ} (hq : (w.device d).client.requests[i]? = some q)
    (hnone : Q.query q = none) :
  Q.world (w.put d { w.device d with client := { (w.device d).client with
      requests := (w.device d).client.requests.eraseIdx i
      results := (w.device d).client.results ++ [(q, w.view d)] } }) = Q.world w
  := by
  have hdevice : Q.device { w.device d with client := { (w.device d).client with
      requests := (w.device d).client.requests.eraseIdx i
      results := (w.device d).client.results ++ [(q, w.view d)] } } = (Q.world w).device d := by
    simp [Selection.world, Selection.device, Selection.client, Selection.result, hnone,
      List.filterMap_eraseIdx_of_none hq hnone]
  rw [Selection.world_put, hdevice, put_self]

omit [DecidableEq Doc] in
/-- A query of the part is answered with what the device sees of the part. -/
theorem answer_world {q : Query} {q' : Query'} {i : ℕ}
    (hq : (w.device d).client.requests[i]? = some q) (hq' : Q.query q = some q') :
  answer (Q.world w) d ((w.device d).client.requests.place Q.query i)
    = some (Q.world (w.put d { w.device d with client := { (w.device d).client with
      requests := (w.device d).client.requests.eraseIdx i
      results := (w.device d).client.results ++ [(q, w.view d)] } }))
  := by
  have hplace : ((Q.world w).device d).client.requests[
      (w.device d).client.requests.place Q.query i]? = some q' :=
    List.filterMap_getElem?_place hq hq'
  rw [Selection.world_put, answer, hplace, Option.map_some, Selection.world_view]
  congr 2
  simp [Selection.world, Selection.device, Selection.client, Selection.result, hq',
    List.filterMap_eraseIdx_place hq hq']

/-- A step of the whole app is a step of the part, or the part does not notice it. -/
theorem step_world (hfit : Q.Fitting w) (h : step P w e = some w') :
  (Q.event w e).elim (Q.world w' = Q.world w) fun e' => step P' (Q.world w) e' = some (Q.world w')
  := by
  rcases step_cases h with ⟨f, rfl, h⟩ | ⟨f, i, rfl, h⟩ | ⟨f, c, r, hh, h⟩
  · obtain ⟨x, ws, hx, rfl⟩ := arrive_cases h
    rw [Q.event_of_no_handler rfl, Selection.eventOf, hx, List.head?_cons, Option.bind_some]
    cases hy : Q.write x with
    | none => apply Q.arrive_world_of_none hx hy
    | some y => apply Q.arrive_world hx hy
  · obtain ⟨q, hq, rfl⟩ := answer_cases h
    rw [Q.event_of_no_handler rfl, Selection.eventOf, hq, Option.bind_some]
    cases hq' : Q.query q with
    | none => apply Q.answer_world_of_none hq hq'
    | some q' => apply Q.answer_world hq hq'
  · have hsettle := Q.settle_world h
    cases r with
    | none =>
        -- of the client a killed app leaves its writes only
        have hrestart : (Q.client c).restart = ((Q.world w).device f).client.restart := by
          simp [Client.restart, Selection.client, Selection.world, Selection.device,
            (handler_client hh).1]
        rw [Q.event_of_none hh, Option.elim_some,
          step_of_handler (handler_kill.mpr ⟨rfl, rfl, rfl⟩), settle, ← hrestart]
        apply hsettle
    | some eff =>
        obtain ⟨-, heff⟩ := Q.handler_world hfit hh
        rw [Q.event_of_some hh]
        cases he : Q.eventOf w e with
        | none =>
            rw [he] at heff
            obtain ⟨hclient, heq⟩ := heff
            rw [hclient, Option.map_some, heq] at hsettle
            apply settle_of_nil hsettle
        | some e' =>
            rw [he] at heff
            rw [Option.elim_some, step_of_handler heff]
            apply hsettle

theorem fitting_step (hfit : Q.Fitting w) (h : step P w e = some w') :
  Q.Fitting w'
  := by
  intro d l hl
  rcases mem_listeners_step h hl with ⟨l', hl', hdoc, htag⟩
    | ⟨c, app, cs, hh, l', hl', hdoc, htag⟩
  · rw [← hdoc, ← htag]
    apply hfit d l' hl'
  · rw [← hdoc, ← htag]
    apply (Q.handler_world hfit hh).1 l' hl'

theorem fitting_run {es : List (Event D Action Input)} (hfit : Q.Fitting w)
    (h : Run.exec (step P) w es = some w') :
  Q.Fitting w'
  := Run.invariant_of_step (fun _ _ _ hfit hs => Q.fitting_step hfit hs) hfit h

/-- A run of the whole app is a run of the part: the events it notices, in their order. -/
theorem run_world {es : List (Event D Action Input)} (hfit : Q.Fitting w)
    (h : Run.exec (step P) w es = some w') :
  Run.exec (step P') (Q.world w) (Run.log (step P) (fun w e => (Q.event w e).toList) w es)
    = some (Q.world w')
  := by
  induction es generalizing w with
  | nil =>
      obtain rfl : w = w' := by simpa using h
      rfl
  | cons e es ih =>
      obtain ⟨w₁, hw₁, hes⟩ := Run.exec_cons_iff.mp h
      have hstep := Q.step_world hfit hw₁
      rw [Run.log_cons hw₁]
      apply Run.exec_append _ (ih (Q.fitting_step hfit hw₁) hes)
      cases he : Q.event w e with
      | none =>
          rw [he, Option.elim_none] at hstep
          rw [hstep]
          rfl
      | some e' =>
          rw [he] at hstep
          apply Run.exec_cons_iff.mpr ⟨_, hstep, rfl⟩

end Part

end Backend

import TaskFirestoreApp.Groups.Duplicates
import TaskFirestoreApp.Groups.Registers
import Mathlib.Data.Fintype.Basic

/-!
# Open chats converge

Devices that show the chat of a group, and only send, are refreshed until they agree: a
device whose copy of the group differs from what it sees has an event due, a refresh
requested, or an answer to be delivered. When nothing is outstanding all copies are the
document on the server, unless a refresh has aborted an app: a listener that was registered by an
earlier chat may ask for a refresh that finds no entry at the number of that chat.
-/

namespace Groups

open Backend

variable {D : Type}

/-- A document of Groups decodes to a group with its id for taskId. -/
def GroupDocument (id : String) (doc : Document) : Prop :=
  IsSegment id ∧ (GroupInfo.decode doc).toOption.map GroupInfo.taskId = some id

instance (id : String) (doc : Document) : Decidable (GroupDocument id doc) :=
  inferInstanceAs (Decidable (_ ∧ _))

theorem groupDocument_iff {id : String} {doc : Document} :
  GroupDocument id doc ↔ IsSegment id ∧ ∃ g, GroupInfo.decode doc = .ok g ∧ g.taskId = id
  := by
  unfold GroupDocument
  cases GroupInfo.decode doc <;> simp [Except.toOption]

/-- The collection holds documents of exactly the groups `ids`. -/
def Whole (ids : List String) (c : Collection String Document) : Prop :=
  c.All GroupDocument ∧ c.keys ⊆ ids ∧ ids ⊆ c.keys

instance (ids : List String) (c : Collection String Document) : Decidable (Whole ids c) :=
  inferInstanceAs (Decidable (_ ∧ _ ∧ _))

section Whole

variable {ids : List String} {c c' : Collection String Document} {t : String}

theorem Whole.mem_iff (h : Whole ids c) {id : String} :
  id ∈ c ↔ id ∈ ids
  := by
  rw [AList.mem_keys]
  exact ⟨fun hid => h.2.1 hid, fun hid => h.2.2 hid⟩

/-- The document of a group of a whole collection. -/
theorem Whole.lookup (h : Whole ids c) (ht : t ∈ ids) :
  ∃ doc g, c.lookup t = some doc ∧ GroupInfo.decode doc = .ok g ∧ g.taskId = t
  := by
  obtain ⟨doc, hdoc⟩ := Option.isSome_iff_exists.mp (AList.lookup_isSome.mpr (h.mem_iff.mpr ht))
  obtain ⟨-, g, hg, hid⟩ := groupDocument_iff.mp (h.1 t doc hdoc)
  use doc, g, hdoc, hg, hid

/-- Writing a document of one of the groups keeps a collection whole. -/
theorem Whole.set (h : Whole ids c) {id : String} {doc : Document} (hid : id ∈ ids)
    (hdoc : GroupDocument id doc) :
  Whole ids ((Write.set id doc).apply c)
  := by
  use Collection.all_apply h.1 hdoc
  have hmem : ∀ i, i ∈ (Write.set id doc).apply c ↔ i ∈ ids := by
    intro i
    rw [Write.apply, AList.mem_insert, h.mem_iff]
    constructor
    · rintro (rfl | hi)
      · apply hid
      · apply hi
    · exact .inr
  simp only [AList.mem_keys] at hmem
  exact ⟨fun i hi => (hmem i).mp hi, fun i hi => (hmem i).mpr hi⟩

theorem loaded_taskId (h : c.All GroupDocument) :
  (loaded c).map GroupInfo.taskId = (orderedByTaskId c).map Prod.fst
  := by
  apply Document.map_decodeAll
  rintro ⟨i, doc⟩ ha
  apply (groupDocument_iff.mp (h i doc (Collection.mem_orderedBy.mp ha).1)).2

theorem field_taskId (h : c.All GroupDocument) :
  c.All fun i doc => doc.field "taskId" = some (.string i)
  := by
  intro i doc hdoc
  obtain ⟨-, g, hg, hid⟩ := groupDocument_iff.mp (h i doc hdoc)
  rw [(GroupInfo.decode_eq_ok.mp hg).1, hid]

/-- The ids a read finds depend on the ids of the collection only. -/
theorem Whole.taskId_loaded (h : Whole ids c) (h' : Whole ids c') :
  (loaded c).map GroupInfo.taskId = (loaded c').map GroupInfo.taskId
  := by
  rw [loaded_taskId h.1, loaded_taskId h'.1]
  apply Collection.ids_orderedBy_congr (field_taskId h.1) (field_taskId h'.1)
  intro i
  rw [h.mem_iff, h'.mem_iff]

/-- A read of a whole collection finds the group of its document. -/
theorem Whole.mem_loaded (h : Whole ids c) (ht : t ∈ ids) :
  ∃ doc g, c.lookup t = some doc ∧ GroupInfo.decode doc = .ok g ∧ g.taskId = t ∧ g ∈ loaded c
  := by
  obtain ⟨doc, g, hdoc, hg, hid⟩ := h.lookup ht
  use doc, g, hdoc, hg, hid, Groups.mem_loaded.mpr ⟨t, doc, hdoc, hg⟩

/-- What a device sees is whole when its writes are of the groups. -/
theorem Whole.overlay {ws : List (Write String Document)} (h : Whole ids c)
    (hws : ∀ x ∈ ws, x.id ∈ ids ∧ ∃ doc ∈ x.doc, GroupDocument x.id doc) :
  Whole ids (Collection.overlay c ws)
  := by
  induction ws generalizing c with
  | nil => apply h
  | cons x ws ih =>
      apply ih
      · obtain ⟨hid, doc, hdoc, hgroup⟩ := hws x List.mem_cons_self
        cases x with
        | set i doc' =>
            cases hdoc
            apply h.set hid hgroup
        | delete i => cases hdoc
      · intro y hy
        apply hws y (List.mem_cons_of_mem _ hy)

end Whole

/-! ### Devices that show the chat -/

/-- A device shows the chat of the group `t`, with a listener on `t` and a list of the
groups `ids`; only refreshes are under way, and only writes of the groups. -/
structure Fit (t : String) (ids : List String) (dev : Device App String Document Query Chat) :
    Prop where
  unarrived : ∀ x ∈ dev.client.unarrived, x.id ∈ ids ∧ ∃ doc ∈ x.doc, GroupDocument x.id doc
  requests : ∀ q ∈ dev.client.requests, q.appends = false
  results : ∀ r ∈ dev.client.results, r.1.appends = false
  listens : ∃ l ∈ dev.client.listeners, l.doc = t
  groupInfo : dev.app.groupInfo.map GroupInfo.taskId = ids
  chat : ∃ s ∈ dev.app.chat, ids[s.chat.groupNumber]? = some t

/-- The newest copy of the group `t` on the device, in the last answer to be delivered or in
`groupInfo`, is the document of the collection `v`. -/
def Current (t : String) (v : Collection String Document)
    (dev : Device App String Document Query Chat) : Prop :=
  (∃ r ∈ dev.client.results.getLast?, r.2.lookup t = v.lookup t)
    ∨ dev.client.results = [] ∧ ∃ g ∈ dev.app.groupInfo, g.taskId = t
      ∧ ∃ doc ∈ v.lookup t, (GroupInfo.decode doc).toOption = some g

/-- An event of a listener on `t` is due, or a refresh is requested, or the newest copy of
`t` is what the device sees. -/
def Informed (t : String) (v : Collection String Document)
    (dev : Device App String Document Query Chat) : Prop :=
  (∃ l ∈ dev.client.listeners, l.doc = t ∧ l.due) ∨ dev.client.requests ≠ [] ∨ Current t v dev

/-- Every device shows the chat of the group `t`, and the groups are `ids`. -/
structure Showing (t : String) (ids : List String) (w : World D) : Prop where
  server : Whole ids w.server
  order : (loaded w.server).map GroupInfo.taskId = ids
  fit : ∀ d, Fit t ids (w.device d)
  informed : ∀ d, Informed t (w.view d) (w.device d)

section Notify

variable {t : String} {ids : List String} {v v' : Collection String Document}
  {dev : Device App String Document Query Chat}

theorem Fit.notify (h : Fit t ids dev) :
  Fit t ids { dev with client := dev.client.notify v v' }
  where
  unarrived := h.unarrived
  requests := h.requests
  results := h.results
  listens := by
    obtain ⟨l, hl, hdoc⟩ := h.listens
    exact ⟨_, List.mem_map_of_mem hl, hdoc⟩
  groupInfo := h.groupInfo
  chat := h.chat

/-- A device stays informed when what it sees changes: its listeners are notified. -/
theorem Informed.notify (h : Informed t v dev) (hlistens : ∃ l ∈ dev.client.listeners, l.doc = t) :
  Informed t v' { dev with client := dev.client.notify v v' }
  := by
  by_cases heq : v.lookup t = v'.lookup t
  · rcases h with ⟨l, hl, hdoc, hdue⟩ | hrequests | hcurrent
    · left
      exact ⟨_, List.mem_map_of_mem hl, hdoc, by simp [hdue]⟩
    · right
      left
      apply hrequests
    · refine .inr (.inr ?_)
      unfold Current at hcurrent ⊢
      rw [← heq]
      apply hcurrent
  · obtain ⟨l, hl, rfl⟩ := hlistens
    left
    exact ⟨_, List.mem_map_of_mem hl, rfl, by simp [heq]⟩

end Notify

/-- The events of the devices while their chats are shown: messages are sent, writes arrive,
listeners are told, and refreshes are answered and delivered in order. -/
def Conversing : Event D → Bool
  | .act _ (.commitBtn _ _) => true
  | .arrive _ => true
  | .answer _ _ => true
  | .deliver _ i _ => i = 0
  | .snapshot _ _ => true
  | _ => false

/-- An answer that is delivered holds documents of exactly the groups `ids`. -/
def DeliversWhole (ids : List String) (w : World D) (e : Event D) : Prop :=
  ∀ p ∈ e.delivery, ∀ r ∈ (w.device p.1).client.results[p.2]?, Whole ids r.2

instance (ids : List String) (w : World D) (e : Event D) : Decidable (DeliversWhole ids w e) :=
  inferInstanceAs (Decidable (∀ p ∈ e.delivery, ∀ r ∈ (w.device p.1).client.results[p.2]?,
    Whole ids r.2))

/-- A refresh that is delivered finds an entry at the number of its chat. -/
def DeliversPresentable (w : World D) (e : Event D) : Prop :=
  ∀ p ∈ e.delivery, ∀ r ∈ (w.device p.1).client.results[p.2]?, Presentable r.1 (loaded r.2)

instance (w : World D) (e : Event D) : Decidable (DeliversPresentable w e) :=
  inferInstanceAs (Decidable (∀ p ∈ e.delivery, ∀ r ∈ (w.device p.1).client.results[p.2]?,
    Presentable r.1 (loaded r.2)))

section Step

variable [DecidableEq D] {t : String} {ids : List String} {w w' : World D} {d : D}

omit [DecidableEq D] in
theorem Showing.view (h : Showing t ids w) (d : D) :
  Whole ids (w.view d)
  := h.server.overlay (h.fit d).unarrived

omit [DecidableEq D] in
theorem Showing.loaded (h : Showing t ids w) {c : Collection String Document} (hc : Whole ids c) :
  (loaded c).map GroupInfo.taskId = ids
  := (hc.taskId_loaded h.server).trans h.order

theorem showing_arrive (h : Showing t ids w) (hs : arrive w d = some w') :
  Showing t ids w'
  := by
  obtain ⟨x, ws, hx, rfl⟩ := arrive_cases hs
  have hwrites := (h.fit d).unarrived
  rw [hx] at hwrites
  have hserver : Whole ids (Collection.overlay w.server [x]) := by
    apply h.server.overlay
    intro y hy
    obtain rfl := List.mem_singleton.mp hy
    apply hwrites y List.mem_cons_self
  constructor
  · apply hserver
  · apply h.loaded hserver
  · intro f
    apply Fit.notify
    rcases eq_or_ne f d with rfl | hf
    · rw [World.put_device_self]
      exact { h.fit f with unarrived := fun y hy => hwrites y (List.mem_cons_of_mem _ hy) }
    · rw [World.put_device_of_ne hf]
      apply h.fit f
  · intro f
    apply Informed.notify
    · rcases eq_or_ne f d with rfl | hf
      · rw [World.put_device_self]
        apply h.informed f
      · rw [World.put_device_of_ne hf]
        apply h.informed f
    · rcases eq_or_ne f d with rfl | hf
      · rw [World.put_device_self]
        apply (h.fit f).listens
      · rw [World.put_device_of_ne hf]
        apply (h.fit f).listens

theorem showing_answer {i : ℕ} (h : Showing t ids w) (hs : answer w d i = some w') :
  Showing t ids w'
  := by
  obtain ⟨q, hq, rfl⟩ := answer_cases hs
  refine ⟨h.server, h.order, ?_, ?_⟩
  · intro f
    rcases eq_or_ne f d with rfl | hf
    · rw [World.put_device_self]
      have hfit := h.fit f
      refine { hfit with requests := ?_, results := ?_ }
      · intro q' hq'
        apply hfit.requests q' ((List.eraseIdx_sublist _ _).subset hq')
      · intro r hr
        rcases List.mem_append.mp hr with hr | hr
        · apply hfit.results r hr
        · obtain rfl := List.mem_singleton.mp hr
          apply hfit.requests q (List.mem_of_getElem? hq)
    · rw [World.put_device_of_ne hf]
      apply h.fit f
  · intro f
    rcases eq_or_ne f d with rfl | hf
    · refine .inr (.inr ?_)
      simp [Current, World.view]
    · have := h.informed f
      simpa [World.view, hf] using this

/-- A handler that does not abort keeps the chats shown, if it does so on its own device. -/
theorem showing_settle {c : Client String Document Query Chat} {app : App} {cs : List Command}
    (h : Showing t ids w) (hs : settle program w d c (some (app, cs)) = some w')
    (hfit : Fit t ids (w'.device d)) (hinformed : Informed t (w'.view d) (w'.device d)) :
  Showing t ids w'
  := by
  have hserver := settle_server hs
  refine ⟨hserver ▸ h.server, hserver ▸ h.order, ?_, ?_⟩
  · intro f
    rcases eq_or_ne f d with rfl | hf
    · apply hfit
    · rw [settle_device_of_ne hs hf]
      apply h.fit f
  · intro f
    rcases eq_or_ne f d with rfl | hf
    · apply hinformed
    · rw [settle_view_of_ne hs hf, settle_device_of_ne hs hf]
      apply h.informed f

omit [DecidableEq D] in
/-- The chat on screen addresses the group `t`. -/
theorem Showing.addressed (h : Showing t ids w) (d : D) :
  ∃ g, addressed w d = some g ∧ g.taskId = t
  := by
  obtain ⟨s, hchat, hnumber⟩ := (h.fit d).chat
  rw [← (h.fit d).groupInfo, List.getElem?_map, Option.map_eq_some_iff] at hnumber
  obtain ⟨g, hg, hid⟩ := hnumber
  refine ⟨g, ?_, hid⟩
  rw [Groups.addressed, Option.mem_def.mp hchat, Option.bind_some, hg]

omit [DecidableEq D] in
theorem Showing.mem_ids (h : Showing t ids w) (d : D) :
  t ∈ ids
  := by
  obtain ⟨s, -, hnumber⟩ := (h.fit d).chat
  apply List.mem_of_getElem? hnumber

omit [DecidableEq D] in
theorem Showing.isSegment (h : Showing t ids w) (d : D) :
  IsSegment t
  := by
  obtain ⟨doc, -, hdoc, -, -⟩ := h.server.lookup (h.mem_ids d)
  apply (h.server.1 t doc hdoc).1

/-- A message that is sent registers a listener, which is due. -/
theorem showing_commit {message : String} {now : Timestamp} (h : Showing t ids w)
    (hs : step w (.act d (.commitBtn message now)) = some w') :
  Showing t ids w'
  := by
  have hfit := h.fit d
  have hsegment := h.isSegment d
  obtain ⟨g, hg, rfl⟩ := h.addressed d
  obtain ⟨s, hchat, hentry, hsettle⟩ := settle_of_press hg hsegment hs
  apply showing_settle h hsettle
  · rcases settle_cases hsettle with ⟨hr, -⟩ | ⟨app, cs, hr, -, rfl⟩
    · cases hr
    cases hr
    apply Fit.notify
    rw [World.put_device_self]
    constructor
    · intro x hx
      rcases List.mem_append.mp hx with hx | hx
      · apply hfit.unarrived x hx
      · obtain rfl : x = .set g.taskId (g.send message now).encode := List.mem_singleton.mp hx
        refine ⟨h.mem_ids d, _, rfl, groupDocument_iff.mpr ?_⟩
        exact ⟨hsegment, _, GroupInfo.decode_encode _, rfl⟩
    · intro q hq
      apply hfit.requests q
      simpa [Command.requested] using hq
    · apply hfit.results
    · obtain ⟨l, hl, hdoc⟩ := hfit.listens
      use l, List.mem_append_left _ hl, hdoc
    · rw [← hfit.groupInfo]
      refine taskId_set hentry ?_
      rfl
    · apply hfit.chat
  · rcases settle_cases hsettle with ⟨hr, -⟩ | ⟨app, cs, hr, -, rfl⟩
    · cases hr
    cases hr
    refine .inl ⟨⟨g.taskId, s.chat, true⟩, ?_, rfl, rfl⟩
    simp [World.notify, Client.notify, Command.registered]

omit [DecidableEq D] in
theorem mem_set_or {l : List (Listener String Chat)} {a b : Listener String Chat} {n : ℕ}
    (ha : a ∈ l) :
  a ∈ l.set n b ∨ l[n]? = some a
  := by
  obtain ⟨k, hk⟩ := List.mem_iff_getElem?.mp ha
  by_cases hn : n = k
  · right
    apply hn ▸ hk
  · refine .inl (List.mem_of_getElem? (i := k) ?_)
    rw [List.getElem?_set_ne hn, hk]

omit [DecidableEq D] in
/-- A listener that was told keeps its document and its chat. -/
theorem Fit.told {dev : Device App String Document Query Chat} {l : Listener String Chat} {i : ℕ}
    (h : Fit t ids dev) (hl : dev.client.listeners[i]? = some l) :
  Fit t ids { dev with client := { dev.client with
    listeners := dev.client.listeners.set i { l with due := false } } }
  where
  unarrived := h.unarrived
  requests := h.requests
  results := h.results
  listens := by
    obtain ⟨a, ha, hdoc⟩ := h.listens
    rcases mem_set_or ha with ha | ha
    · use a, ha, hdoc
    · obtain rfl : l = a := Option.some.inj (hl.symm.trans ha)
      obtain ⟨hlt, -⟩ := List.getElem?_eq_some_iff.mp hl
      exact ⟨_, List.mem_set hlt _, hdoc⟩
  groupInfo := h.groupInfo
  chat := h.chat

/-- An event of a listener on `t` requests a refresh, and an event of another listener does
not change the newest copy of `t`. -/
theorem showing_snapshot {i : ℕ} (h : Showing t ids w) (hs : step w (.snapshot d i) = some w') :
  Showing t ids w'
  := by
  obtain ⟨⟨f, c, r⟩, hr, hsettle⟩ := Option.bind_eq_some_iff.mp hs
  obtain ⟨l, hl, -, rfl, rfl, rfl⟩ := handler_snapshot.mp hr
  have hfit := (h.fit d).told hl
  change settle program w d _ (some (TaskGroupDetailViewController.observeRealTimeFirestore.changed
    l.tag ((w.view d).lookup l.doc) _)) = some w' at hsettle
  unfold TaskGroupDetailViewController.observeRealTimeFirestore.changed at hsettle
  split at hsettle
  · next hnone =>
      obtain ⟨hdevice, hview⟩ := settle_device_of_written hsettle rfl rfl
      apply showing_settle h hsettle
      · rw [hdevice]
        simpa [Client.run] using hfit
      · rw [hdevice, hview]
        rcases h.informed d with ⟨a, ha, hdoc, hdue⟩ | hrequests | hcurrent
        · refine .inl ⟨a, ?_, hdoc, hdue⟩
          rcases mem_set_or (b := { l with due := false }) ha with ha | ha
          · simpa [Client.run] using ha
          · obtain rfl : l = a := Option.some.inj (hl.symm.trans ha)
            obtain ⟨doc, g, hlookup, -, -⟩ := (h.view d).lookup (h.mem_ids d)
            rw [hdoc, hlookup] at hnone
            cases hnone
        · right
          left
          simpa [Client.run] using hrequests
        · right
          right
          apply hcurrent
  · obtain ⟨hdevice, hview⟩ := settle_device_of_written hsettle rfl rfl
    apply showing_settle h hsettle
    · rw [hdevice]
      constructor
      · simpa [Client.run, Command.written] using hfit.unarrived
      · intro q hq
        rcases List.mem_append.mp hq with hq | hq
        · apply hfit.requests q hq
        · obtain rfl : q = .refresh l.tag := List.mem_singleton.mp hq
          rfl
      · apply hfit.results
      · simpa [Client.run, Command.registered] using hfit.listens
      · apply hfit.groupInfo
      · apply hfit.chat
    · rw [hdevice]
      refine .inr (.inl ?_)
      simp [Client.run, Command.requested]

omit [DecidableEq D] in
/-- The answer delivered was the newest copy of `t`, or an answer that is left is. -/
theorem current_deliver {dev : Device App String Document Query Chat} {q : Query} {app : App}
    {k v : Collection String Document} (hk : dev.client.results[0]? = some (q, k))
    (hwhole : Whole ids k) (ht : t ∈ ids) (hgroupInfo : app.groupInfo = loaded k)
    (h : Current t v dev) :
  Current t v ⟨app, Client.run
    { dev.client with results := dev.client.results.eraseIdx 0 } ([] : List Command)⟩
  := by
  obtain ⟨results, hresults⟩ : ∃ results, dev.client.results = (q, k) :: results := by
    cases hr : dev.client.results with
    | nil => simp [hr] at hk
    | cons r results =>
        rw [hr] at hk
        exact ⟨results, by rw [Option.some.inj hk]⟩
  unfold Current at h ⊢
  simp only [Client.run_results, hresults, List.eraseIdx_zero, List.tail_cons] at h ⊢
  rcases h with ⟨r, hr, hlookup⟩ | ⟨hnil, -⟩
  · cases results with
    | nil =>
        obtain rfl : (q, k) = r := by simpa using hr
        obtain ⟨doc, g, hdoc, hg, hid, hmem⟩ := hwhole.mem_loaded ht
        refine .inr ⟨rfl, g, hgroupInfo ▸ hmem, hid, doc, ?_, by simp [hg, Except.toOption]⟩
        rw [Option.mem_def, ← hdoc]
        apply hlookup.symm
    | cons r' results => exact .inl ⟨r, by simpa [List.getLast?_cons] using hr, hlookup⟩
  · cases hnil

/-- The delivery of a refresh that finds all groups, and an entry at the number of its chat,
leaves the groups in the list in their order, and the newest copy of `t` in it when no other
answer is left. -/
theorem showing_deliver (h : Showing t ids w) (hwholes : DeliversWhole ids w (.deliver d 0 ()))
    (hpresents : DeliversPresentable w (.deliver d 0 ()))
    (hs : step w (.deliver d 0 ()) = some w') :
  Showing t ids w'
  := by
  have hfit := h.fit d
  obtain ⟨⟨f, c, r⟩, hr, hsettle⟩ := Option.bind_eq_some_iff.mp hs
  obtain ⟨q, k, hk, rfl, rfl, rfl⟩ := handler_deliver.mp hr
  have hrefresh := hfit.results _ (List.mem_of_getElem? hk)
  have hwhole : Whole ids k := hwholes (d, 0) rfl _ hk
  have hloaded := h.loaded hwhole
  cases q with
  | home | list => cases hrefresh
  | refresh chat =>
      have hnumber : chat.groupNumber < (loaded k).length := hpresents (d, 0) rfl _ hk
      obtain ⟨app', hcompleted, hgroupInfo, hchat⟩ :=
        TaskGroupDetailViewController.completed_eq_some (w.device d).app hnumber
      change settle program w d _
        (TaskGroupDetailViewController.observeRealTimeFirestore.completed chat k _) = some w'
        at hsettle
      rw [hcompleted] at hsettle
      obtain ⟨hdevice, hview⟩ := settle_device_of_written hsettle rfl rfl
      apply showing_settle h hsettle
      · rw [hdevice]
        constructor
        · simpa [Client.run] using hfit.unarrived
        · simpa [Client.run] using hfit.requests
        · intro r hr
          apply hfit.results r ((List.eraseIdx_sublist _ _).subset hr)
        · simpa [Client.run] using hfit.listens
        · rw [hgroupInfo, hloaded]
        · obtain ⟨s, hs, hnumber⟩ := hfit.chat
          rw [Option.mem_def.mp hs, Option.map_some, Option.map_eq_some_iff] at hchat
          obtain ⟨s', hs', heq⟩ := hchat
          use s', hs', heq ▸ hnumber
      · rw [hdevice, hview]
        rcases h.informed d with hdue | hrequests | hcurrent
        · left
          simpa [Client.run] using hdue
        · right
          left
          simpa [Client.run] using hrequests
        · right
          right
          apply current_deliver hk hwhole (h.mem_ids d) hgroupInfo hcurrent

theorem showing_step {e : Event D} (h : Showing t ids w) (he : Conversing e)
    (hwhole : DeliversWhole ids w e) (hpresents : DeliversPresentable w e)
    (hs : step w e = some w') :
  Showing t ids w'
  := by
  unfold Conversing at he
  split at he
  · apply showing_commit h hs
  · apply showing_arrive h hs
  · apply showing_answer h hs
  · obtain rfl := of_decide_eq_true he
    apply showing_deliver h hwhole hpresents hs
  · apply showing_snapshot h hs
  · cases he

/-- Nothing is outstanding. -/
def Quiescent (w : World D) : Prop :=
  ∀ d, (w.device d).client.unarrived = [] ∧ (w.device d).client.requests = []
    ∧ (w.device d).client.results = [] ∧ ∀ l ∈ (w.device d).client.listeners, l.due = false

omit [DecidableEq D] in
theorem Showing.nodup (h : Showing t ids w) :
  ids.Nodup
  := by
  rw [← h.order, loaded_taskId h.server.1]
  apply Collection.nodup_ids_orderedBy

/-- The chat on the screen of the device addresses the only entry of the group `t` in its
`groupInfo`, and this entry is the document on the server. -/
def Converged (t : String) (w : World D) (d : D) : Prop :=
  ∃ s g doc, (w.device d).app.chat = some s
    ∧ (w.device d).app.groupInfo[s.chat.groupNumber]? = some g
    ∧ ((w.device d).app.groupInfo.countP fun g => g.taskId == t) = 1
    ∧ w.server.lookup t = some doc ∧ GroupInfo.decode doc = .ok g ∧ g.taskId = t

omit [DecidableEq D] in
/-- When nothing is outstanding, the copy of a device is the document on the server. -/
theorem showing_quiescent (h : Showing t ids w) (hquiescent : Quiescent w) (d : D) :
  Converged t w d
  := by
  obtain ⟨hunarrived, hrequests, hresults, hdue⟩ := hquiescent d
  have hfit := h.fit d
  have hview : w.view d = w.server := by simp [World.view, hunarrived]
  obtain ⟨g, hg, hid, doc, hdoc, hdecode⟩ : ∃ g ∈ (w.device d).app.groupInfo, g.taskId = t
      ∧ ∃ doc ∈ (w.view d).lookup t, (GroupInfo.decode doc).toOption = some g := by
    rcases h.informed d with ⟨l, hl, -, hl'⟩ | hne | ⟨r, hr, -⟩ | ⟨-, hcurrent⟩
    · simp [hdue l hl] at hl'
    · exact absurd hrequests hne
    · simp [hresults] at hr
    · apply hcurrent
  obtain ⟨g', hg', hid'⟩ := h.addressed d
  obtain ⟨s, hs, hentry⟩ := Option.bind_eq_some_iff.mp hg'
  have hnodup : ((w.device d).app.groupInfo.map GroupInfo.taskId).Nodup :=
    hfit.groupInfo ▸ h.nodup
  obtain rfl : g = g' :=
    List.inj_on_of_nodup_map hnodup hg (List.mem_of_getElem? hentry) (hid.trans hid'.symm)
  refine ⟨s, g, doc, hs, hentry, ?_, by rwa [hview] at hdoc, ?_, hid⟩
  · have := List.count_eq_one_of_mem hnodup (List.mem_map_of_mem hg)
    rw [List.count, List.countP_map, hid] at this
    simpa [Function.comp_def] using this
  · cases hgroup : GroupInfo.decode doc with
    | error err => simp [hgroup, Except.toOption] at hdecode
    | ok g' => simpa [hgroup, Except.toOption] using hdecode

/-! ### Apps that are aborted -/

/-- A refresh that finds no entry at the number of its chat takes the chat off the screen. -/
theorem exists_chat_none {e : Event D} (he : ¬ DeliversPresentable w e) (hs : step w e = some w') :
  ∃ d, (w'.device d).app.chat = none
  := by
  simp only [DeliversPresentable, not_forall] at he
  obtain ⟨⟨d, i⟩, hdelivery, ⟨q, k⟩, hk, hnot⟩ := he
  obtain ⟨x, rfl⟩ := Event.delivery_eq_some.mp hdelivery
  use d
  have hh : handler program w (.deliver d i x) = some
      (d, { (w.device d).client with results := (w.device d).client.results.eraseIdx i }, none) :=
    handler_deliver.mpr ⟨q, k, hk, rfl, rfl, (callback_eq_none.mpr hnot).symm⟩
  rw [device_of_aborted hh hs]
  rfl

/-- No chat comes to the screen of a device while the devices converse. -/
theorem chat_none_step {e : Event D} (h : (w.device d).app.chat = none) (he : Conversing e)
    (hs : step w e = some w') :
  (w'.device d).app.chat = none
  := by
  rcases app_step hs d with happ | happ | ⟨c, cs, hh, -⟩
  · rw [happ, h]
  · rw [happ]
    rfl
  · rcases handler_cases hh with ⟨g, message, now, hs⟩ | ⟨screen, g, hs⟩ | ⟨row, g, hs⟩ | hs
    · obtain ⟨s, hchat, -⟩ := hs.chat
      cases h.symm.trans hchat
    · obtain ⟨_, _, _, rfl, -⟩ := hs.event
      cases he
    · obtain rfl := hs.event
      cases he
    · cases hs.shows with
      | taps row g event entry happ commands =>
          subst event
          cases he
      | appears s g chat entry happ commands => cases h.symm.trans chat
      | delivers i q k event result groupInfo presentable front rows chat commands =>
          simpa [h] using chat
      | clears groupInfo rows chat registered =>
          rcases chat with hnone | ⟨-, hsame⟩
          · apply hnone
          · simpa [h] using hsame
      | keeps groupInfo front rows chat registered => simpa [h] using chat

/-! ### Agreement -/

/-- Devices show the chat of a group and only send, and each answer that is delivered holds all
groups. Then the devices agree when nothing is outstanding exactly when every refresh that was
delivered found an entry at the number of its chat: each device has one entry of the group in
`groupInfo`, at the number of its chat, and it is the document on the server. -/
theorem chats_converge {es : List (Event D)} (h : Showing t ids w) (hes : ∀ e ∈ es, Conversing e)
    (hwhole : Run.Along step (DeliversWhole ids) w es) (hrun : run w es = some w')
    (hquiescent : Quiescent w') :
  (∀ d, Converged t w' d) ↔ Run.Along step DeliversPresentable w es
  := by
  constructor
  · intro hconverged
    rcases Run.along_or_split (C := DeliversPresentable) hrun with
      halong | ⟨es₁, e, es₂, w₁, w₂, rfl, -, -, hnot, hs, h₂⟩
    · apply halong
    · obtain ⟨d, hnone⟩ := exists_chat_none hnot hs
      have hconversing : Run.Along step (fun _ e => Conversing e) w₂ es₂ := by
        apply Run.along_of_forall
        intro w e he
        apply hes e
        simp [he]
      have hnone' : (w'.device d).app.chat = none :=
        Run.exec_invariant (I := fun w => (w.device d).app.chat = none)
          (fun w e w' hw he hs => chat_none_step hw he hs) hnone hconversing h₂
      obtain ⟨s, _, _, hs, -⟩ := hconverged d
      cases hnone'.symm.trans hs
  · intro hpresents
    have hconversing : Run.Along step (fun _ e => Conversing e) w es :=
      Run.along_of_forall fun _ => hes
    have hshowing : Showing t ids w' := by
      apply Run.exec_invariant _ h (hconversing.and (hwhole.and hpresents)) hrun
      rintro w e w' hw ⟨he, hwhole, hpresents⟩ hs
      apply showing_step hw he hwhole hpresents hs
    apply showing_quiescent hshowing hquiescent

/-! ### Rows that are in reach -/

/-- The query is the refresh of a chat whose number is a row of a list of `n` entries. -/
def RefreshOf (n : ℕ) : Query → Bool
  | .refresh chat => chat.groupNumber < n
  | _ => false

/-- The chats are shown, and every listener, request and answer is of a chat whose number is a
row of the list of the groups `ids`, which every answer holds. -/
structure Steady (t : String) (ids : List String) (w : World D) : Prop where
  showing : Showing t ids w
  listeners : ∀ d, ∀ l ∈ (w.device d).client.listeners, l.tag.groupNumber < ids.length
  requests : ∀ d, ∀ q ∈ (w.device d).client.requests, RefreshOf ids.length q
  results : ∀ d, ∀ r ∈ (w.device d).client.results, RefreshOf ids.length r.1 ∧ Whole ids r.2

omit [DecidableEq D] in
theorem Steady.deliversWhole (h : Steady t ids w) (e : Event D) :
  DeliversWhole ids w e
  := fun p _ r hr => (h.results p.1 r (List.mem_of_getElem? hr)).2

omit [DecidableEq D] in
theorem Steady.deliversPresentable (h : Steady t ids w) (e : Event D) :
  DeliversPresentable w e
  := by
  rintro p - ⟨q, k⟩ hr
  obtain ⟨hrefresh, hwhole⟩ := h.results p.1 _ (List.mem_of_getElem? hr)
  cases q with
  | home | list => cases hrefresh
  | refresh chat =>
      change chat.groupNumber < (loaded k).length
      rw [← List.length_map (f := GroupInfo.taskId), h.showing.loaded hwhole]
      apply of_decide_eq_true hrefresh

omit [DecidableEq D] in
/-- What a handler requests and registers while the devices converse is in reach. -/
theorem commands_of_conversing {e : Event D} {c : Client String Document Query Chat} {app : App}
    {cs : List Command} (h : Steady t ids w) (he : Conversing e)
    (hh : handler program w e = some (d, c, some (app, cs))) :
  (∀ q ∈ cs.filterMap Command.requested, RefreshOf ids.length q)
    ∧ ∀ l ∈ cs.filterMap Command.registered, l.tag.groupNumber < ids.length
  := by
  cases e with
  | act d' a =>
      cases a with
      | commitBtn message now =>
          obtain ⟨-, rfl, -, hact⟩ := handler_act.mp hh
          have hact : act (.commitBtn message now) _ = some (app, cs) := hact.symm
          cases does_of_act hact with
          | commitBtn _ _ s g id chat entry reference =>
              constructor
              · intro q hq
                cases hq
              · intro l hl
                obtain rfl : l = ⟨id, s.chat, true⟩ := List.mem_singleton.mp hl
                obtain ⟨hlt, -⟩ := List.getElem?_eq_some_iff.mp entry
                rw [← (h.showing.fit d').groupInfo]
                simpa using hlt
      | _ => cases he
  | deliver d' i x =>
      obtain ⟨q, k, hk, rfl, -, hcallback⟩ := handler_deliver.mp hh
      have hrefresh := (h.results d' _ (List.mem_of_getElem? hk)).1
      cases q with
      | home | list => cases hrefresh
      | refresh chat =>
          have hnil : cs = [] := by
            obtain ⟨-, rows, heff | heff⟩ :=
              TaskGroupDetailViewController.completed_cases hcallback.symm
            · exact (Prod.mk.inj heff).2
            · exact (Prod.mk.inj heff).2
          simp [hnil]
  | snapshot d' i =>
      obtain ⟨l, hl, -, rfl, -, hlistener⟩ := handler_snapshot.mp hh
      have hreach := h.listeners d' l (List.mem_of_getElem? hl)
      cases hdoc : (w.view d').lookup l.doc with
      | none =>
          rw [hdoc] at hlistener
          obtain ⟨-, rfl⟩ := Prod.mk.inj (Option.some.inj hlistener)
          simp
      | some doc =>
          rw [hdoc] at hlistener
          obtain ⟨-, rfl⟩ := Prod.mk.inj (Option.some.inj hlistener)
          constructor
          · intro q hq
            obtain rfl : q = .refresh l.tag := List.mem_singleton.mp hq
            apply decide_eq_true hreach
          · intro l hl
            cases hl
  | fail d' i => cases he
  | kill d' => cases he
  | arrive d' => simp [handler] at hh
  | answer d' i => simp [handler] at hh

theorem steady_step {e : Event D} (h : Steady t ids w) (he : Conversing e)
    (hs : step w e = some w') :
  Steady t ids w'
  where
  showing := showing_step h.showing he (h.deliversWhole e) (h.deliversPresentable e) hs
  listeners d l hl := by
    rcases mem_listeners_step hs hl with ⟨l', hl', -, htag⟩ | ⟨c, app, cs, hh, l', hl', -, htag⟩
    · rw [← htag]
      apply h.listeners d l' hl'
    · rw [← htag]
      apply (commands_of_conversing h he hh).2 l' hl'
  requests d q hq := by
    rcases mem_requests_step hs hq with hq | ⟨c, app, cs, hh, hq⟩
    · apply h.requests d q hq
    · apply (commands_of_conversing h he hh).1 q hq
  results d r hr := by
    rcases mem_results_step hs hr with hr | ⟨hrequest, hview⟩
    · apply h.results d r hr
    · use h.requests d _ hrequest
      rw [hview]
      apply h.showing.view

theorem steady_run {es : List (Event D)} (h : Steady t ids w) (hes : ∀ e ∈ es, Conversing e)
    (hs : run w es = some w') :
  Steady t ids w'
  := by
  apply Run.exec_invariant (fun w e w' hw he hs => steady_step hw he hs) h _ hs
  apply Run.along_of_forall
  intro w e he
  apply hes e he

end Step

section Decidable

variable (t : String) (ids : List String) (w : World D)

instance (dev : Device App String Document Query Chat) : Decidable (Fit t ids dev) :=
  decidable_of_iff
    ((∀ x ∈ dev.client.unarrived, x.id ∈ ids ∧ ∃ doc ∈ x.doc, GroupDocument x.id doc)
      ∧ (∀ q ∈ dev.client.requests, q.appends = false)
      ∧ (∀ r ∈ dev.client.results, r.1.appends = false)
      ∧ (∃ l ∈ dev.client.listeners, l.doc = t)
      ∧ dev.app.groupInfo.map GroupInfo.taskId = ids
      ∧ ∃ s ∈ dev.app.chat, ids[s.chat.groupNumber]? = some t)
    ⟨fun ⟨h₁, h₂, h₃, h₄, h₅, h₆⟩ => ⟨h₁, h₂, h₃, h₄, h₅, h₆⟩,
      fun ⟨h₁, h₂, h₃, h₄, h₅, h₆⟩ => ⟨h₁, h₂, h₃, h₄, h₅, h₆⟩⟩

instance (v : Collection String Document) (dev : Device App String Document Query Chat) :
    Decidable (Informed t v dev) :=
  inferInstanceAs (Decidable ((∃ l ∈ dev.client.listeners, l.doc = t ∧ l.due)
    ∨ dev.client.requests ≠ []
    ∨ (∃ r ∈ dev.client.results.getLast?, r.2.lookup t = v.lookup t)
    ∨ dev.client.results = [] ∧ ∃ g ∈ dev.app.groupInfo, g.taskId = t
      ∧ ∃ doc ∈ v.lookup t, (GroupInfo.decode doc).toOption = some g))

variable [Fintype D]

instance : Decidable (Showing t ids w) :=
  decidable_of_iff
    (Whole ids w.server ∧ (loaded w.server).map GroupInfo.taskId = ids
      ∧ (∀ d, Fit t ids (w.device d)) ∧ ∀ d, Informed t (w.view d) (w.device d))
    ⟨fun ⟨h₁, h₂, h₃, h₄⟩ => ⟨h₁, h₂, h₃, h₄⟩, fun ⟨h₁, h₂, h₃, h₄⟩ => ⟨h₁, h₂, h₃, h₄⟩⟩

instance : Decidable (Steady t ids w) :=
  decidable_of_iff
    (Showing t ids w ∧ (∀ d, ∀ l ∈ (w.device d).client.listeners, l.tag.groupNumber < ids.length)
      ∧ (∀ d, ∀ q ∈ (w.device d).client.requests, RefreshOf ids.length q)
      ∧ ∀ d, ∀ r ∈ (w.device d).client.results, RefreshOf ids.length r.1 ∧ Whole ids r.2)
    ⟨fun ⟨h₁, h₂, h₃, h₄⟩ => ⟨h₁, h₂, h₃, h₄⟩, fun ⟨h₁, h₂, h₃, h₄⟩ => ⟨h₁, h₂, h₃, h₄⟩⟩

instance : Decidable (Quiescent w) :=
  inferInstanceAs (Decidable (∀ d, (w.device d).client.unarrived = []
    ∧ (w.device d).client.requests = [] ∧ (w.device d).client.results = []
    ∧ ∀ l ∈ (w.device d).client.listeners, l.due = false))

end Decidable

/-- Both devices send before either is refreshed, and are then left to themselves. -/
def bothSend : List (Event Bool) :=
  [.act true (.commitBtn "a" 2), .act false (.commitBtn "b" 3), .arrive true, .arrive false,
    .snapshot true 0, .snapshot true 1, .snapshot false 0, .snapshot false 1, .answer true 0,
    .answer true 0, .answer false 0, .answer false 0, .deliver true 0 (), .deliver true 0 (),
    .deliver false 0 (), .deliver false 0 ()]

/-- Two devices open the chat of a group, and both send before either is refreshed. -/
theorem chats_converge_concurrent :
  ∃ w w' : World Bool, run World.initial twoChats = some w ∧ Showing "t" ["t"] w
    ∧ run w bothSend = some w' ∧ ∀ d, Converged "t" w' d
  := by
  have hrun : ∃ w ∈ run World.initial twoChats, Showing "t" ["t"] w
      ∧ Run.Along step (DeliversWhole ["t"]) w bothSend
      ∧ Run.Along step DeliversPresentable w bothSend ∧ ∃ w' ∈ run w bothSend, Quiescent w' := by
    decide +kernel
  obtain ⟨w, hw, hshowing, hwhole, hpresents, w', hw', hquiescent⟩ := hrun
  use w, w', hw, hshowing, hw'
  apply (chats_converge hshowing _ hwhole hw' hquiescent).mpr hpresents
  decide

/-- A device opens the chat of the second of two groups, goes back, deletes the first group and
opens the chat again: the listener of the first chat is still there. -/
def reopened : List (Event Unit) :=
  started () ++ makesGroup () "g" "t" 1 ++ makesGroup () "h" "z" 2 ++ [.arrive (), .arrive ()]
    ++ opensList () ++ opensChat () 1 ++ [.snapshot () 0, .answer () 0, .deliver () 0 (),
      .act () .back, .answer () 0, .deliver () 0 (), .act () (.commitEditing 0), .arrive (),
      .answer () 0, .deliver () 0 ()]
    ++ opensChat () 0

/-- A message is sent, and the first chat's listener asks for the entry at its number. -/
theorem not_chats_converge :
  ¬ ∀ (t : String) (ids : List String) (es₀ es : List (Event Unit)) (w w' : World Unit),
      run World.initial es₀ = some w → Showing t ids w → (∀ e ∈ es, Conversing e) →
      Run.Along step (DeliversWhole ids) w es → run w es = some w' → Quiescent w' →
      ∀ d, Converged t w' d
  := by
  intro h
  have hrun : ∃ w ∈ run World.initial reopened, Showing "t" ["t"] w
      ∧ Run.Along step (DeliversWhole ["t"]) w [.act () (.commitBtn "a" 3), .snapshot () 0,
        .answer () 0, .deliver () 0 (), .arrive ()]
      ∧ ∃ w' ∈ run w [.act () (.commitBtn "a" 3), .snapshot () 0, .answer () 0, .deliver () 0 (),
        .arrive ()], Quiescent w' ∧ (w'.device ()).app.chat = none := by
    decide +kernel
  obtain ⟨w, hw, hshowing, hwhole, w', hw', hquiescent, hnone⟩ := hrun
  obtain ⟨s, _, _, hs, -⟩ := h "t" ["t"] reopened _ w w' hw hshowing (by decide) hwhole hw'
    hquiescent ()
  cases hnone.symm.trans hs

end Groups

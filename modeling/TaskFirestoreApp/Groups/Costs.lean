import TaskFirestoreApp.Library.Observers
import TaskFirestoreApp.Groups.Settling

/-!
# What a message costs

`viewDidAppear` and `commitBtn` register a listener of the chat each time they are called, and the
app removes none. When devices take turns every listener leads to one more read of all groups, so
that the turns of a device become longer for it with each message it has sent.
-/

namespace Groups

open Backend

variable {D : Type} [DecidableEq D] {t : String} {ids : List String} {w w' : World D} {d f : D}

theorem refreshing_program :
  program.Refreshing
  := by
  intro chat doc app app' cs h
  obtain ⟨-, rfl⟩ := Prod.mk.inj (Option.some.inj h.symm)
  rfl

/-- No app is aborted while the chats are shown. -/
theorem unaborted_of_steady {e : Event D} (h : Steady t ids w) (he : Conversing e)
    (hs : step w e = some w') :
  Unaborted program w e
  := by
  intro f c hh
  obtain ⟨s, hs', -⟩ := ((steady_step h he hs).showing.fit f).chat
  rw [device_of_aborted hh hs] at hs'
  cases hs'

theorem unaborted_of_run {es : List (Event D)} (h : Steady t ids w) (hes : ∀ e ∈ es, Tending e)
    (hs : run w es = some w') :
  Run.Along step (fun w e => (e.Spontaneous ∧ e.Orderly) ∧ Unaborted program w e) w es
  := by
  have hcourse : ∀ (w : World D) (e : Event D) w', Steady t ids w → step w e = some w' →
      ((e.Spontaneous ∧ e.Orderly) ∧ Unaborted program w e ↔ Tending e) := by
    intro w e w' hw hs
    constructor
    · rintro ⟨he, -⟩
      apply Bool.and_eq_true_iff.mpr he
    · intro he
      use Bool.and_eq_true_iff.mp he
      apply unaborted_of_steady hw (conversing_of_tending he) hs
  have hkept : ∀ (w : World D) (e : Event D) w', Steady t ids w → Tending e →
      step w e = some w' → Steady t ids w' :=
    fun w e w' hw he hs => steady_step hw (conversing_of_tending he) hs
  apply (Run.along_congr hcourse hkept h hs).mpr
  apply Run.along_of_forall fun _ => hes

/-- The message that is sent changes the document of its group. -/
theorem encode_send_ne {g : GroupInfo} {doc : Document} {message : String} {now : Timestamp}
    (hg : GroupInfo.decode doc = .ok g) :
  (g.send message now).encode ≠ doc
  := by
  rintro rfl
  rw [GroupInfo.decode_encode] at hg
  have htalks := congrArg GroupInfo.groupMemberTalks (Except.ok.inj hg)
  have hlength : (GroupInfo.extendTalks g.groupMemberTalks message).length
      = g.groupMemberTalks.length := congrArg List.length htalks
  simp only [GroupInfo.extendTalks] at hlength
  split_ifs at hlength with hnil
  · simp [hnil] at hlength
  · simp at hlength

/-- The listeners of the device `f` on the group `t`. -/
def observers (t : String) (f : D) (w : World D) : ℕ :=
  (w.device f).client.observing t

/-- A press registers one more listener, and each device is owed one refresh for each of its
listeners. -/
theorem course_of_press {message : String} {now : Timestamp} (h : Showing t ids w)
    (hquiescent : Quiescent w) (hs : step w (.act d (.commitBtn message now)) = some w') :
  Course t d w' ∧ ∀ f, owed t d f w' = observers t f w'
    ∧ observers t f w' = observers t f w + if f = d then 1 else 0
  := by
  obtain ⟨s, g, doc, hchat, hentry, -, hdoc, hg, rfl⟩ := showing_quiescent h hquiescent d
  have haddressed : addressed w d = some g := by
    rw [addressed, hchat, Option.bind_some, hentry]
  obtain ⟨s', -, -, hsettle⟩ := settle_of_press haddressed (h.isSegment d) hs
  apply course_start hquiescent hsettle rfl rfl
  · intro l hl
    obtain rfl : l = ⟨g.taskId, s'.chat, true⟩ := List.mem_singleton.mp hl
    rfl
  · rw [hdoc]
    rfl
  · rw [hdoc]
    intro heq
    apply encode_send_ne hg (Option.some.inj heq).symm

/-- The turn `m.1`, in which `m.2 f` refreshes are delivered to each device `f`. -/
structure CountedTurn (w : World D) (m : (D × String) × (D → ℕ)) (w' : World D) : Prop where
  press : ∃ now w₁ es, step w (.act m.1.1 (.commitBtn m.1.2 now)) = some w₁
    ∧ (∀ e ∈ es, Tending e) ∧ run w₁ es = some w' ∧ ∀ f, es.countP (Event.DeliversTo f) = m.2 f
  quiescent : Quiescent w'

theorem CountedTurn.turn {m : (D × String) × (D → ℕ)} (h : CountedTurn w m w') :
  Turn w m.1 w'
  := by
  obtain ⟨⟨now, w₁, es, hpress, hes, hrun, -⟩, hquiescent⟩ := h
  exact ⟨⟨now, w₁, es, hpress, hes, hrun⟩, hquiescent⟩

/-- In a turn each device is refreshed once for each of its listeners, that of the message
included. -/
theorem cost_of_turn {m : (D × String) × (D → ℕ)} (h : Steady t ids w) (hquiescent : Quiescent w)
    (hturn : CountedTurn w m w') (f : D) :
  m.2 f = observers t f w' ∧ observers t f w' = observers t f w + if f = m.1.1 then 1 else 0
  := by
  obtain ⟨⟨now, w₁, es, hpress, hes, hrun, hcount⟩, hquiescent'⟩ := hturn
  have hcommit : Conversing (.act m.1.1 (.commitBtn m.1.2 now) : Event D) := rfl
  have hsteady := steady_step h hcommit hpress
  obtain ⟨hcourse, hpressed⟩ := course_of_press h.showing hquiescent hpress
  obtain ⟨howed, hobservers⟩ := hpressed f
  obtain ⟨hkept, hdelivered⟩ := deliveries_eq responsive_program refreshing_program hcourse
    (unaborted_of_run hsteady hes hrun) hrun hquiescent' f
  have hkept : observers t f w' = observers t f w₁ := hkept
  rw [← hcount f, hdelivered, howed, hkept]
  use rfl

/-- The messages that the device `f` sends in the turns. -/
def sent (f : D) (ms : List ((D × String) × (D → ℕ))) : ℕ :=
  ms.countP fun m => m.1.1 = f

theorem sent_snoc (ms : List ((D × String) × (D → ℕ)))
    (m : (D × String) × (D → ℕ)) :
  sent f (ms ++ [m]) = sent f ms + if f = m.1.1 then 1 else 0
  := by
  simp [sent, List.countP_append, List.countP_singleton, eq_comm]

/-- Every message leaves one more listener on its device. -/
theorem observers_of_turns {ms : List ((D × String) × (D → ℕ))} {v : List String}
    (h : AtRest t ids v w) (hturns : Turns CountedTurn w ms w') :
  (∃ v', AtRest t ids v' w') ∧ ∀ f, observers t f w' = observers t f w + sent f ms
  := by
  induction hturns with
  | nil => exact ⟨⟨v, h⟩, fun _ => rfl⟩
  | snoc turns turn ih =>
      obtain ⟨⟨v', hrest⟩, hobservers⟩ := ih
      constructor
      · exact ⟨_, atRest_of_turn hrest turn.turn⟩
      · intro f
        rw [(cost_of_turn hrest.steady hrest.quiescent turn f).2, hobservers, sent_snoc,
          Nat.add_assoc]

/-- In each turn a device is refreshed for the listeners it had at the start and for the messages it
has sent since. -/
theorem cost_of_last {ms : List ((D × String) × (D → ℕ))} {m : (D × String) × (D → ℕ)}
    {v : List String} {w₁ : World D} (h : AtRest t ids v w) (hturns : Turns CountedTurn w ms w₁)
    (hturn : CountedTurn w₁ m w') (f : D) :
  m.2 f = observers t f w + sent f (ms ++ [m])
  := by
  obtain ⟨⟨v', hrest⟩, hobservers⟩ := observers_of_turns h hturns
  obtain ⟨hcost, hgrow⟩ := cost_of_turn hrest.steady hrest.quiescent hturn f
  rw [hcost, hgrow, hobservers, sent_snoc, Nat.add_assoc]

theorem exists_countedTurn [Fintype D] {v : List String} (h : AtRest t ids v w)
    (m : D × String) :
  ∃ c w', CountedTurn w (m, c) w'
  := by
  obtain ⟨w', ⟨now, w₁, es, hpress, hes, hrun⟩, hquiescent⟩ := exists_turn h m
  use fun f => es.countP (Event.DeliversTo f), w'
  exact ⟨⟨now, w₁, es, hpress, hes, hrun, fun _ => rfl⟩, hquiescent⟩

/-- The refreshes of each turn are those of the listeners at the start and of the messages sent
up to the turn. -/
def Counted (L : D → ℕ) (ms : List ((D × String) × (D → ℕ))) : Prop :=
  ∀ k m, ms[k]? = some m → ∀ f, m.2 f = L f + sent f (ms.take (k + 1))

theorem counted_snoc_iff {L : D → ℕ} {ms : List ((D × String) × (D → ℕ))}
    {m : (D × String) × (D → ℕ)} :
  Counted L (ms ++ [m]) ↔ Counted L ms ∧ ∀ f, m.2 f = L f + sent f (ms ++ [m])
  := by
  have hinit : ∀ k, k < ms.length → (ms ++ [m]).take (k + 1) = ms.take (k + 1) := fun k hk =>
    List.take_append_of_le_length hk
  have hwhole : (ms ++ [m]).take (ms.length + 1) = ms ++ [m] := by
    apply List.take_of_length_le
    simp
  constructor
  · intro h
    constructor
    · intro k m' hm
      obtain ⟨hk, -⟩ := List.getElem?_eq_some_iff.mp hm
      rw [← hinit k hk]
      apply h k m'
      rw [List.getElem?_append_left hk, hm]
    · rw [← hwhole]
      apply h ms.length m
      simp
  · rintro ⟨h, hlast⟩ k m' hm
    rcases Nat.lt_or_ge k ms.length with hk | hk
    · rw [hinit k hk]
      apply h k m'
      rwa [List.getElem?_append_left hk] at hm
    · rw [List.getElem?_append_right hk, List.getElem?_singleton,
        Option.ite_none_right_eq_some] at hm
      obtain ⟨hk', hm⟩ := hm
      obtain rfl := Option.some.inj hm
      obtain rfl : k = ms.length := by omega
      rw [hwhole]
      apply hlast

/-- Devices that show one chat can take any turns, and in whatever order they take their steps,
in each turn every device reads all groups once for each listener it had on the group at the start
and once more for each message it has sent since. -/
theorem turns_cost [Fintype D] {ms : List ((D × String) × (D → ℕ))} {v : List String}
    (h : AtRest t ids v w) :
  (∃ w', Turns CountedTurn w ms w') ↔ Counted (fun f => observers t f w) ms
  := by
  constructor
  · rintro ⟨w', hturns⟩
    induction hturns with
    | nil =>
        intro k m hm
        cases hm
    | snoc turns turn ih => exact counted_snoc_iff.mpr ⟨ih, cost_of_last h turns turn⟩
  · intro hcounted
    induction ms using List.reverseRecOn with
    | nil => exact ⟨w, .nil⟩
    | append_singleton ms m ih =>
        obtain ⟨hinit, hlast⟩ := counted_snoc_iff.mp hcounted
        obtain ⟨w₁, hturns⟩ := ih hinit
        obtain ⟨⟨v', hrest⟩, -⟩ := observers_of_turns h hturns
        obtain ⟨c, w₂, hturn⟩ := exists_countedTurn hrest m.1
        obtain rfl : c = m.2 := by
          funext f
          have hcost := cost_of_last h hturns hturn f
          rw [hlast f, sent_snoc]
          rwa [sent_snoc] at hcost
        use w₂, .snoc hturns hturn

/-- Two devices take three turns, each with one listener at the start. -/
theorem turns_cost_two :
  ∃ w : World Bool, AtRest "t" ["t"] [] w
    ∧ ∃ w', Turns CountedTurn w [((true, "a"), fun f => bif f then 2 else 1),
        ((true, "b"), fun f => bif f then 3 else 1),
        ((false, "c"), fun f => bif f then 3 else 2)] w'
  := by
  obtain ⟨w, hrest, hlisteners⟩ := exists_atRest
  have hobservers : ∀ f, observers "t" f w = 1 := by
    intro f
    have hcount : observers "t" f w
        = ((w.device f).client.listeners.map Listener.doc).countP fun i => i = "t" := by
      rw [List.countP_map]
      rfl
    rw [hcount, hlisteners]
    rfl
  use w, hrest
  apply (turns_cost hrest).mpr
  simp only [hobservers]
  intro k m hm f
  match k, hm with
  | 0, rfl => cases f <;> rfl
  | 1, rfl => cases f <;> rfl
  | 2, rfl => cases f <;> rfl

end Groups

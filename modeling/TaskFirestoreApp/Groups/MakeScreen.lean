import TaskFirestoreApp.Groups.Effects
import TaskFirestoreApp.Library.Toggle

/-!
# The make-group screen

A tap on a check box toggles the candidate of its row. However the taps, the presses of the
create button and everything else on the devices are interleaved, the members of the group
to be created are the candidates whose boxes were tapped an odd number of times, in the order
of their latest taps, and the create button saves exactly these.
-/

namespace Groups

open Backend

namespace TaskMakeTableViewController

variable {name : String} {names : List String} {screen : MakeScreen} {row : ℕ}

/-- One pass of the loop of `checkBoxIconViewTapped`. -/
theorem toggle_cons {i : ℕ} {is : List ℕ} {member : String} (h : names[i]? = some member) :
  toggle name (i :: is) names =
    if name = member then some (names.eraseIdx i)
    else if i + 1 = names.length then toggle name is (names ++ [name])
    else toggle name is names
  := by
  simp [toggle, h]

theorem eraseIdx_eq_erase {i : ℕ} (hbefore : name ∉ names.take i) (h : names[i]? = some name) :
  names.eraseIdx i = names.erase name
  := by
  symm
  apply List.erase_eq_eraseIdx_of_idxOf
  obtain ⟨hlt, heq⟩ := List.getElem?_eq_some_iff.mp h
  have hsplit : names = names.take i ++ name :: names.drop (i + 1) := by
    rw [← heq, ← List.drop_eq_getElem_cons, List.take_append_drop]
  rw [hsplit, List.idxOf_append_of_notMem hbefore, List.idxOf_cons_self, List.length_take]
  omega

theorem not_mem_take_succ {i : ℕ} {member : String} (hbefore : name ∉ names.take i)
    (h : names[i]? = some member) (hne : name ≠ member) :
  name ∉ names.take (i + 1)
  := by
  rw [List.take_add_one, h]
  simp [hbefore, hne]

/-- The loop of `checkBoxIconViewTapped` toggles the name, when it does not occur before the
indices left. Its end is the length of the list before the loop: the name that is appended at
the last index is not looked at again. -/
theorem toggle_eq_some {i k : ℕ} (hlength : i + (k + 1) = names.length)
    (hbefore : name ∉ names.take i) :
  toggle name (List.range' i (k + 1)) names = some (Toggle.toggle name names)
  := by
  obtain ⟨member, hmember⟩ : ∃ member, names[i]? = some member :=
    ⟨_, List.getElem?_eq_getElem (by omega)⟩
  induction k generalizing i member with
  | zero =>
      rw [List.range'_succ, toggle_cons hmember]
      split_ifs with hname
      · subst hname
        rw [eraseIdx_eq_erase hbefore hmember, Toggle.toggle_of_mem (List.mem_of_getElem? hmember)]
      · have hnot := not_mem_take_succ hbefore hmember hname
        rw [hlength, List.take_length] at hnot
        rw [Toggle.toggle_of_not_mem hnot]
        rfl
  | succ k ih =>
      rw [List.range'_succ, toggle_cons hmember]
      split_ifs with hname hlast
      · subst hname
        rw [eraseIdx_eq_erase hbefore hmember, Toggle.toggle_of_mem (List.mem_of_getElem? hmember)]
      · omega
      · have hnot := not_mem_take_succ hbefore hmember hname
        apply ih (by omega) hnot _ (List.getElem?_eq_getElem (by omega))

/-- A tap toggles the candidate of its row. -/
theorem checkBoxIconViewTapped_eq_some (h : screen.groupMemberCandidate[row]? = some name) :
  checkBoxIconViewTapped row screen = some { screen with
    groupCandidate := { screen.groupCandidate with
      groupMemberNames := Toggle.toggle name screen.groupCandidate.groupMemberNames } }
  := by
  simp only [checkBoxIconViewTapped, h, Option.bind_eq_bind, Option.bind_some, Option.pure_def]
  split_ifs with hlength
  · rw [List.length_eq_zero_iff] at hlength
    simp [hlength, Toggle.toggle]
  · obtain ⟨k, hk⟩ := Nat.exists_eq_succ_of_ne_zero hlength
    rw [List.range_eq_range', hk, toggle_eq_some (by omega) (by simp), Option.bind_some]

end TaskMakeTableViewController

open TaskMakeTableViewController

/-! ### What a handler does to the screen -/

section Handler

variable {app app' : App} {cs : List Command} {screen : MakeScreen}

/-- Only the check boxes change a screen, once it is pushed. -/
theorem act_make {a : Action} (h : act a app = some (app', cs))
    (hscreen : app'.make = some screen) :
  (∃ now, a = .showMakeGroupView now)
    ∨ (∃ row screen', a = .checkBoxIconViewTapped row ∧ app.make = some screen'
      ∧ checkBoxIconViewTapped row screen' = some screen)
    ∨ app.make = some screen ∧ ∀ row, a ≠ .checkBoxIconViewTapped row
  := by
  cases does_of_act h with
  | launch | makeGroup | popMakeGroupView => cases hscreen
  | showMakeGroupView now =>
      left
      use now
  | checkBoxIconViewTapped row screen' _ make tapped =>
      obtain rfl := Option.some.inj hscreen
      right
      left
      use row, screen'
  | _ =>
      right
      right
      use hscreen
      intro row
      simp

/-- A callback leaves the screen as it is. -/
theorem callback_make {q : Query} {k : Collection String Document}
    (h : callback q k () app = some (app', cs)) :
  app'.make = app.make
  := by
  cases q with
  | home | list =>
      obtain ⟨rfl, -⟩ := Prod.mk.inj (Option.some.inj h.symm)
      rfl
  | refresh chat =>
      obtain ⟨-, rows, h | h⟩ := TaskGroupDetailViewController.completed_cases h
      · obtain ⟨rfl, -⟩ := Prod.mk.inj h
        rfl
      · obtain ⟨rfl, -⟩ := Prod.mk.inj h
        rfl

end Handler

section Step

variable {D : Type} [DecidableEq D] {w w' : World D} {e : Event D} {d f : D}
  {c : Client String Document Query Chat} {app : App} {cs : List Command} {screen : MakeScreen}
  {candidates : List String} {now : Timestamp} {rows : List ℕ} {row : ℕ} {name : String}

omit [DecidableEq D] in
/-- A handler finds the screen it leaves, unless it pushes it or a check box of it is tapped. -/
theorem make_handler (hh : handler program w e = some (d, c, some (app, cs)))
    (hscreen : app.make = some screen) :
  (∃ now, e = .act d (.showMakeGroupView now))
    ∨ (∃ row screen', e = .act d (.checkBoxIconViewTapped row)
      ∧ (w.device d).app.make = some screen'
      ∧ checkBoxIconViewTapped row screen' = some screen)
    ∨ (w.device d).app.make = some screen
      ∧ ∀ f row, e ≠ .act f (.checkBoxIconViewTapped row)
  := by
  cases e with
  | act f a =>
      obtain ⟨-, rfl, -, h⟩ := handler_act.mp hh
      rcases act_make h.symm hscreen with ⟨now, rfl⟩ | ⟨row, screen', rfl, hs, hs'⟩ | ⟨hs, ha⟩
      · left
        use now
      · exact .inr (.inl ⟨row, screen', rfl, hs, hs'⟩)
      · refine .inr (.inr ⟨hs, ?_⟩)
        rintro f' row h
        obtain ⟨-, rfl⟩ := Event.act.inj h
        apply ha row rfl
  | deliver f i x =>
      obtain ⟨q, k, -, rfl, -, h⟩ := handler_deliver.mp hh
      rw [callback_make h.symm] at hscreen
      exact .inr (.inr ⟨hscreen, by simp⟩)
  | fail f i =>
      obtain ⟨q, -, rfl, -, h⟩ := handler_fail.mp hh
      refine .inr (.inr ⟨?_, by simp⟩)
      cases q with
      | home | list | refresh chat =>
          obtain ⟨rfl, -⟩ := Prod.mk.inj (Option.some.inj h)
          apply hscreen
  | snapshot f i =>
      obtain ⟨l, -, -, rfl, -, h⟩ := handler_snapshot.mp hh
      rw [listener_app h.symm] at hscreen
      exact .inr (.inr ⟨hscreen, by simp⟩)
  | kill f => simp [handler] at hh
  | arrive f => simp [handler] at hh
  | answer f i => simp [handler] at hh

/-! ### Sequences of taps -/

/-- The row of a tap on a check box of the device `d`. -/
def tick (d : D) (_ : World D) : Event D → List ℕ
  | .act f (.checkBoxIconViewTapped row) => if f = d then [row] else []
  | _ => []

/-- The rows of the check boxes of the device `d` that are tapped in a run of the events from
`w`, in order. -/
abbrev ticks (d : D) (w : World D) (es : List (Event D)) : List ℕ :=
  Run.log step (tick d) w es

theorem tick_eq_nil (h : ∀ f row, e ≠ .act f (.checkBoxIconViewTapped row)) :
  tick d w e = []
  := by
  unfold tick
  split
  · next f row => exact absurd rfl (h f row)
  · rfl

theorem tick_of_ne {r : Option Effect} (hh : handler program w e = some (f, c, r)) (hf : d ≠ f) :
  tick d w e = []
  := by
  unfold tick
  split
  · next f' row =>
      obtain ⟨-, rfl, -, -⟩ := handler_act.mp hh
      rw [if_neg hf.symm]
  · rfl

/-- The candidates at the rows. -/
def candidatesAt (candidates : List String) (rows : List ℕ) : List String :=
  rows.filterMap fun row => candidates[row]?

/-- The screen after taps on the check boxes at the rows. -/
def ticked (candidates : List String) (now : Timestamp) (rows : List ℕ) : MakeScreen where
  groupMemberCandidate := candidates
  groupCandidate := {
    taskId := ""
    groupName := ""
    groupMemberNames := Toggle.toggleAll (candidatesAt candidates rows)
    groupMemberTalks := []
    createdAt := now
    updatedAt := now }

theorem ticked_nil :
  ticked candidates now [] = fresh candidates now
  := rfl

theorem ticked_concat (h : checkBoxIconViewTapped row (ticked candidates now rows) = some screen) :
  screen = ticked candidates now (rows ++ [row])
  := by
  obtain ⟨name, hname, -⟩ := Option.bind_eq_some_iff.mp h
  rw [checkBoxIconViewTapped_eq_some hname] at h
  have hconcat : candidatesAt candidates (rows ++ [row])
      = candidatesAt candidates rows ++ [name] := by
    have hname' : candidates[row]? = some name := hname
    simp [candidatesAt, List.filterMap_append, hname']
  rw [← Option.some.inj h]
  simp only [ticked, hconcat, Toggle.toggleAll_concat]

/-- The screen of the device `d`, if there is one, is what the taps at the rows made of it. -/
def Ticked (candidates : List String) (now : Timestamp) (d : D) (rows : List ℕ) (w : World D) :
    Prop :=
  ∀ screen ∈ (w.device d).app.make, screen = ticked candidates now rows

/-- A step keeps the screen, and adds the tap it is. -/
theorem ticked_step (h : Ticked candidates now d rows w)
    (hshow : ∀ now, e ≠ .act d (.showMakeGroupView now)) (hs : step w e = some w') :
  Ticked candidates now d (rows ++ tick d w e) w'
  := by
  intro screen hscreen
  rcases step_cases hs with ⟨f, rfl, hs⟩ | ⟨f, i, rfl, hs⟩ | ⟨f, c, r, hh, hs⟩
  · rw [(arrive_device hs d).1] at hscreen
    rw [tick_eq_nil (by simp), List.append_nil]
    apply h screen hscreen
  · rw [(answer_device hs d).1] at hscreen
    rw [tick_eq_nil (by simp), List.append_nil]
    apply h screen hscreen
  · rcases eq_or_ne d f with rfl | hf
    · cases r with
      | none =>
          rw [settle_self_none hs] at hscreen
          cases hscreen
      | some eff =>
          rw [(settle_self hs).1] at hscreen
          rcases make_handler hh hscreen with ⟨now, rfl⟩ | ⟨row, screen', rfl, hscreen', htap⟩
            | ⟨hscreen', he⟩
          · exact absurd rfl (hshow now)
          · rw [h screen' hscreen'] at htap
            rw [ticked_concat htap]
            simp [tick]
          · rw [tick_eq_nil he, List.append_nil]
            apply h screen hscreen'
    · rw [settle_device_of_ne hs hf] at hscreen
      rw [tick_of_ne hh hf, List.append_nil]
      apply h screen hscreen

theorem ticked_of_run {es : List (Event D)}
    (hfresh : (w.device d).app.make = some (fresh candidates now))
    (hshow : ∀ now, .act d (.showMakeGroupView now) ∉ es) (h : run w es = some w') :
  Ticked candidates now d (ticks d w es) w'
  := by
  have hw : Ticked candidates now d [] w := by
    intro screen hscreen
    rw [hfresh] at hscreen
    rw [ticked_nil, ← Option.some.inj hscreen]
  have key : Ticked candidates now d ([] ++ ticks d w es) w' := by
    apply Run.exec_induction (C := fun _ e => ∀ now, e ≠ .act d (.showMakeGroupView now))
      (P := Ticked candidates now d) _ hw _ h
    · intro rows w e w' hw he hs
      apply ticked_step hw he hs
    · apply Run.along_of_forall
      rintro w e he now rfl
      apply hshow now he
  simpa using key

/-! ### What is ticked -/

/-- The names are those of the candidates whose boxes were tapped an odd number of times, each
once, in the order of their latest taps. -/
structure Selects (candidates : List String) (rows : List ℕ) (names : List String) : Prop where
  nodup : names.Nodup
  subset : names ⊆ candidates
  mem_iff : ∀ row name, candidates[row]? = some name → (name ∈ names ↔ Odd (rows.count row))
  order : names.Pairwise fun a b =>
    Toggle.latest (candidatesAt candidates rows) a < Toggle.latest (candidatesAt candidates rows) b

/-- The taps on the box of a candidate are the taps on its row. -/
theorem count_candidatesAt (hcandidates : candidates.Nodup) (h : candidates[row]? = some name) :
  (candidatesAt candidates rows).count name = rows.count row
  := by
  rw [candidatesAt, List.count_filterMap, List.count]
  apply List.countP_congr
  intro i _
  obtain ⟨hrow, hname⟩ := List.getElem?_eq_some_iff.mp h
  constructor
  · intro hi
    obtain ⟨hlt, heq⟩ := List.getElem?_eq_some_iff.mp (by simpa using hi)
    simpa using (hcandidates.getElem_inj_iff).mp (heq.trans hname.symm)
  · intro hi
    obtain rfl : i = row := by simpa using hi
    simpa using h

theorem selects_ticked (hcandidates : candidates.Nodup) :
  Selects candidates rows (ticked candidates now rows).groupCandidate.groupMemberNames
  where
  nodup := Toggle.nodup_toggleAll
  subset name hname := by
    obtain ⟨k, hk⟩ := Toggle.mem_toggleAll.mp hname
    have hmem : name ∈ candidatesAt candidates rows := by
      rw [← List.count_pos_iff]
      omega
    obtain ⟨row, -, hrow⟩ := List.mem_filterMap.mp hmem
    apply List.mem_of_getElem? hrow
  mem_iff row name h := by
    rw [← count_candidatesAt hcandidates h]
    apply Toggle.mem_toggleAll
  order := Toggle.pairwise_toggleAll

/-- The step saves the group `g` from the device `d`: its document is written under an id that
was not handed out before, it is appended to `groupInfo`, and the screen is popped. -/
structure Saves (w w' : World D) (d : D) (g : GroupInfo) : Prop where
  fresh : g.taskId ∉ w.issued
  issued : w'.issued = g.taskId :: w.issued
  server : w'.server = w.server
  app : (w'.device d).app
    = { (w.device d).app with groupInfo := (w.device d).app.groupInfo ++ [g], make := none }
  unarrived : (w'.device d).client.unarrived
    = (w.device d).client.unarrived ++ [.set g.taskId g.encode]
  others : ∀ f, f ≠ d → w'.device f = w.device f

/-- A press of the create button does nothing at all, or saves the group. -/
theorem makeGroupBtn_step {groupName taskId : String} {createdAt updatedAt : Timestamp}
    (hscreen : (w.device d).app.make = some screen)
    (hs : step w (.act d (.makeGroupBtn groupName taskId createdAt updatedAt)) = some w') :
  if groupName = "" ∨ screen.groupCandidate.groupMemberNames = [] then w' = w
    else
      Saves w w' d
        (TaskMakeTableViewController.created screen groupName taskId createdAt updatedAt)
  := by
  obtain ⟨⟨f, c, r⟩, hh, hsettle⟩ := Option.bind_eq_some_iff.mp hs
  obtain ⟨henabled, rfl, rfl, hact⟩ := handler_act.mp hh
  have hid : document taskId = some taskId := document_of_isSegment (isSegment_of_enabled henabled)
  have hact' : r = makeGroupBtn groupName taskId createdAt updatedAt screen (w.device d).app := by
    rw [hact]
    change ((w.device d).app.make.bind _) = _
    rw [hscreen, Option.bind_some]
  simp only [makeGroupBtn, String.isEmpty_iff, List.length_eq_zero_iff] at hact'
  by_cases hname : groupName = ""
  · rw [if_pos hname] at hact'
    rw [if_pos (.inl hname)]
    apply settle_of_nil (hact' ▸ hsettle)
  · by_cases hmembers : screen.groupCandidate.groupMemberNames = []
    · rw [if_neg hname, if_pos hmembers] at hact'
      rw [if_pos (.inr hmembers)]
      apply settle_of_nil (hact' ▸ hsettle)
    · rw [if_neg hname, if_neg hmembers] at hact'
      rw [if_neg (by simp [hname, hmembers])]
      simp only [saveGroupToFirestore, hid, Option.bind_eq_bind, Option.bind_some] at hact'
      obtain rfl := hact'
      obtain ⟨hissued, hfresh⟩ := settle_issued hsettle
      obtain ⟨happ, hunarrived, -, -⟩ := settle_self hsettle
      constructor
      · apply hfresh taskId
        simp [Command.drawn]
      · apply hissued
      · apply settle_server hsettle
      · apply happ
      · apply hunarrived
      · intro f hf
        apply settle_device_of_ne hsettle hf

/-- On a make-group screen that was pushed with distinct candidates, whatever else happens on
the devices: the members are the candidates whose boxes were tapped an odd number of times, in
the order of their latest taps; no tap on a box is out of range; and a press of the create
button, whatever name is in the text field by then, does nothing when the name is empty or
there is no member, and otherwise saves a group with this name, exactly these members and no
messages. -/
theorem saves_what_is_ticked {es : List (Event D)} (hcandidates : candidates.Nodup)
    (hfresh : (w.device d).app.make = some (fresh candidates now))
    (hshow : ∀ now, .act d (.showMakeGroupView now) ∉ es) (h : run w es = some w')
    (hscreen : (w'.device d).app.make = some screen) :
  Selects candidates (ticks d w es) screen.groupCandidate.groupMemberNames
    ∧ (∀ row < candidates.length, (act (.checkBoxIconViewTapped row) (w'.device d).app).isSome)
    ∧ ∀ groupName taskId createdAt updatedAt w'',
      step w' (.act d (.makeGroupBtn groupName taskId createdAt updatedAt)) = some w'' →
      if groupName = "" ∨ screen.groupCandidate.groupMemberNames = [] then w'' = w'
        else Saves w' w'' d {
          taskId := taskId
          groupName := groupName
          groupMemberNames := screen.groupCandidate.groupMemberNames
          groupMemberTalks := []
          createdAt := createdAt
          updatedAt := updatedAt }
  := by
  obtain rfl := ticked_of_run hfresh hshow h screen hscreen
  use selects_ticked hcandidates
  constructor
  · intro row hrow
    have hname : (ticked candidates now (ticks d w es)).groupMemberCandidate[row]?
        = some candidates[row] := List.getElem?_eq_getElem hrow
    simp [act, hscreen, checkBoxIconViewTapped_eq_some hname]
  · intro groupName taskId createdAt updatedAt w'' hs
    apply makeGroupBtn_step hscreen hs

end Step

/-- Of the first three candidates the third is ticked, the first is ticked and unticked, and
the second is ticked after a press without a name. -/
theorem saves_what_is_ticked_second :
  ∃ w ∈ run World.initial (started () ++ [.act () (.showMakeGroupView 1)]),
    ∃ w' ∈ run w [.act () (.checkBoxIconViewTapped 2), .act () (.checkBoxIconViewTapped 0),
        .act () (.checkBoxIconViewTapped 0), .act () (.makeGroupBtn "" "t" 2 2),
        .act () (.checkBoxIconViewTapped 1)],
      ∃ w'' ∈ step w' (.act () (.makeGroupBtn "g" "t" 3 3)),
        Saves w' w'' () ⟨"t", "g", ["遼太朗", "お母さん"], [], 3, 3⟩
          ∧ Selects groupMemberCandidate [2, 0, 0, 1] ["遼太朗", "お母さん"]
  := by
  have hrun : ∃ w ∈ run World.initial (started () ++ [.act () (.showMakeGroupView 1)]),
      ∃ w' ∈ run w [.act () (.checkBoxIconViewTapped 2), .act () (.checkBoxIconViewTapped 0),
          .act () (.checkBoxIconViewTapped 0), .act () (.makeGroupBtn "" "t" 2 2),
          .act () (.checkBoxIconViewTapped 1)],
        (w.device ()).app.make = some (fresh groupMemberCandidate 1)
          ∧ ticks () w [.act () (.checkBoxIconViewTapped 2), .act () (.checkBoxIconViewTapped 0),
            .act () (.checkBoxIconViewTapped 0), .act () (.makeGroupBtn "" "t" 2 2),
            .act () (.checkBoxIconViewTapped 1)] = [2, 0, 0, 1]
          ∧ (∃ screen ∈ (w'.device ()).app.make,
            screen.groupCandidate.groupMemberNames = ["遼太朗", "お母さん"])
          ∧ ∃ w'' ∈ step w' (.act () (.makeGroupBtn "g" "t" 3 3)), True := by
    decide +kernel
  obtain ⟨w, hw, w', hw', hfresh, hticks, ⟨screen, hscreen, hnames⟩, w'', hw'', -⟩ := hrun
  obtain ⟨hselects, -, hpress⟩ :=
    saves_what_is_ticked (by decide) hfresh (by simp) hw' hscreen
  use w, hw, w', hw', w'', hw''
  rw [hticks, hnames] at hselects
  have hsaves := hpress "g" "t" 3 3 w'' hw''
  rw [if_neg (by simp [hnames]), hnames] at hsaves
  use hsaves

end Groups

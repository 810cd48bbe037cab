import Mathlib.Data.List.Basic
import Mathlib.Data.Option.Basic

/-!
# Runs of a partial step function

A machine is a function `step : σ → ε → Option σ`: the state an event leads to, or `none`
when the event cannot happen. `exec` follows a list of events, `Along` says that a
condition on a state and the next event holds at every step of a run, and `log` collects
what each step of a run writes. The rule `exec_induction` carries a property of the log
and the state through a run.
-/

namespace Run

variable {σ ε ι : Type*} (step : σ → ε → Option σ)

/-- The state the events lead to from `s`, if each of them can happen. -/
def exec : σ → List ε → Option σ
  | s, [] => some s
  | s, e :: es => (step s e).bind fun s' => exec s' es

/-- The condition `C` holds at every step of the run of the events from `s`. -/
def Along (C : σ → ε → Prop) : σ → List ε → Prop
  | _, [] => True
  | s, e :: es => C s e ∧ ∀ s', step s e = some s' → Along C s' es

/-- The property `I` holds in every state of the run of the events from `s`. -/
def Throughout (I : σ → Prop) (s : σ) (es : List ε) : Prop :=
  ∀ es₁ es₂ s₁, es = es₁ ++ es₂ → exec step s es₁ = some s₁ → I s₁

/-- What the steps of the run of the events from `s` write, in order. -/
def log (f : σ → ε → List ι) : σ → List ε → List ι
  | _, [] => []
  | s, e :: es => f s e ++ (step s e).elim [] fun s' => log f s' es

variable {step} {C : σ → ε → Prop} {f : σ → ε → List ι} {s s' s'' : σ} {e : ε}
  {es es' : List ε}

@[simp]
theorem exec_nil :
  exec step s [] = some s
  := rfl

theorem exec_cons_iff :
  exec step s (e :: es) = some s'' ↔ ∃ s', step s e = some s' ∧ exec step s' es = some s''
  := by
  simp [exec, Option.bind_eq_some_iff]

/-- A run of `es` followed by `es'` is a run of `es` and then a run of `es'`. -/
theorem exec_append_iff :
  exec step s (es ++ es') = some s''
    ↔ ∃ s', exec step s es = some s' ∧ exec step s' es' = some s''
  := by
  induction es generalizing s with
  | nil => simp
  | cons e es ih =>
      simp only [List.cons_append, exec_cons_iff, ih]
      constructor
      · rintro ⟨s₁, h₁, s₂, h₂, h⟩
        use s₂, ⟨s₁, h₁, h₂⟩
      · rintro ⟨s₂, ⟨s₁, h₁, h₂⟩, h⟩
        use s₁, h₁, s₂

theorem exec_append (h : exec step s es = some s') (h' : exec step s' es' = some s'') :
  exec step s (es ++ es') = some s''
  := exec_append_iff.mpr ⟨s', h, h'⟩

theorem exec_snoc (h : exec step s es = some s') (h' : step s' e = some s'') :
  exec step s (es ++ [e]) = some s''
  := exec_append h (exec_cons_iff.mpr ⟨s'', h', rfl⟩)

theorem along_cons (h : step s e = some s') :
  Along step C s (e :: es) ↔ C s e ∧ Along step C s' es
  := by
  simp [Along, h]

theorem along_append (h : exec step s es = some s') :
  Along step C s (es ++ es') ↔ Along step C s es ∧ Along step C s' es'
  := by
  induction es generalizing s with
  | nil =>
      obtain rfl : s = s' := by simpa using h
      simp [Along]
  | cons e es ih =>
      obtain ⟨s₁, h₁, h₂⟩ := exec_cons_iff.mp h
      rw [List.cons_append, along_cons h₁, along_cons h₁, ih h₂, and_assoc]

theorem Along.and {C' : σ → ε → Prop} (h : Along step C s es) (h' : Along step C' s es) :
  Along step (fun s e => C s e ∧ C' s e) s es
  := by
  induction es generalizing s with
  | nil => trivial
  | cons e es ih =>
      constructor
      · use h.1, h'.1
      · intro s' hs'
        apply ih (h.2 s' hs') (h'.2 s' hs')

theorem Along.imp {C' : σ → ε → Prop} (hC : ∀ s e, C s e → C' s e) (h : Along step C s es) :
  Along step C' s es
  := by
  induction es generalizing s with
  | nil => trivial
  | cons e es ih =>
      constructor
      · apply hC s e h.1
      · intro s' hs'
        apply ih (h.2 s' hs')

/-- A condition that can be decided at every step can be decided along a run. -/
instance decidableAlong [∀ s e, Decidable (C s e)] : ∀ s es, Decidable (Along step C s es)
  | _, [] => isTrue trivial
  | s, e :: es =>
      match h : step s e with
      | none => decidable_of_iff (C s e) (by simp [Along, h])
      | some s' =>
          have := decidableAlong s' es
          decidable_of_iff (C s e ∧ Along step C s' es) (along_cons h).symm

/-- A condition that holds of every event in every state holds along every run. -/
theorem along_of_forall (hC : ∀ s, ∀ e ∈ es, C s e) :
  Along step C s es
  := by
  induction es generalizing s with
  | nil => trivial
  | cons e es ih =>
      constructor
      · apply hC s e List.mem_cons_self
      · intro s' _
        apply ih
        intro s e he
        apply hC s e (List.mem_cons_of_mem _ he)

theorem log_cons (h : step s e = some s') :
  log step f s (e :: es) = f s e ++ log step f s' es
  := by
  simp [log, h]

theorem log_append (h : exec step s es = some s') :
  log step f s (es ++ es') = log step f s es ++ log step f s' es'
  := by
  induction es generalizing s with
  | nil =>
      obtain rfl : s = s' := by simpa using h
      rfl
  | cons e es ih =>
      obtain ⟨s₁, h₁, h₂⟩ := exec_cons_iff.mp h
      rw [List.cons_append, log_cons h₁, log_cons h₁, ih h₂, List.append_assoc]

/-- What holds of everything a run writes holds of what each of its steps writes. -/
theorem along_of_log {Q : ι → Prop} (h : ∀ x ∈ log step f s es, Q x) :
  Along step (fun s e => ∀ x ∈ f s e, Q x) s es
  := by
  induction es generalizing s with
  | nil => trivial
  | cons e es ih =>
      constructor
      · intro x hx
        apply h x (List.mem_append_left _ hx)
      · intro s' hs'
        apply ih
        intro x hx
        apply h x
        rw [log_cons hs']
        apply List.mem_append_right _ hx

/-- A property of the log and the state that every step meeting `C` preserves holds at the
end of every run whose steps meet `C`. -/
theorem exec_induction {P : List ι → σ → Prop} {l : List ι}
    (hstep : ∀ l s e s', P l s → C s e → step s e = some s' → P (l ++ f s e) s')
    (h : P l s) (hC : Along step C s es) (hs : exec step s es = some s') :
  P (l ++ log step f s es) s'
  := by
  induction es generalizing l s with
  | nil =>
      obtain rfl : s = s' := by simpa using hs
      simpa [log] using h
  | cons e es ih =>
      obtain ⟨s₁, h₁, h₂⟩ := exec_cons_iff.mp hs
      obtain ⟨hCe, hCs⟩ := (along_cons h₁).mp hC
      rw [log_cons h₁, ← List.append_assoc]
      apply ih (hstep l s e s₁ h hCe h₁) hCs h₂

/-- An invariant of the steps meeting `C` is an invariant of the runs whose steps
meet `C`. -/
theorem exec_invariant {I : σ → Prop}
    (hstep : ∀ s e s', I s → C s e → step s e = some s' → I s')
    (h : I s) (hC : Along step C s es) (hs : exec step s es = some s') :
  I s'
  := exec_induction (P := fun _ s => I s) (f := fun _ _ => ([] : List Unit)) (l := [])
      (fun _ s e s' => hstep s e s') h hC hs

/-- A measure that is lowered by one exactly at the events that meet `p` counts them. -/
theorem countP_of_measure {I : σ → Prop} {μ : σ → ℕ} {p : ε → Bool}
    (hstep : ∀ s e s', I s → C s e → step s e = some s' →
      I s' ∧ μ s = μ s' + if p e then 1 else 0)
    (h : I s) (hC : Along step C s es) (hs : exec step s es = some s') :
  I s' ∧ μ s = μ s' + es.countP p
  := by
  induction es generalizing s with
  | nil =>
      obtain rfl : s = s' := by simpa using hs
      exact ⟨h, rfl⟩
  | cons e es ih =>
      obtain ⟨s₁, h₁, h₂⟩ := exec_cons_iff.mp hs
      obtain ⟨hCe, hCs⟩ := (along_cons h₁).mp hC
      obtain ⟨hI, hμ⟩ := hstep s e s₁ h hCe h₁
      obtain ⟨hI', hμ'⟩ := ih hI hCs h₂
      use hI'
      rw [hμ, hμ', List.countP_cons]
      omega

/-- The rule for a property that every step preserves. -/
theorem induction_of_step {P : List ι → σ → Prop} {l : List ι}
    (hstep : ∀ l s e s', P l s → step s e = some s' → P (l ++ f s e) s')
    (h : P l s) (hs : exec step s es = some s') :
  P (l ++ log step f s es) s'
  := by
  apply exec_induction (C := fun _ _ => True) _ h (along_of_forall fun _ _ _ => trivial) hs
  intro l s e s' hP _ he
  apply hstep l s e s' hP he

/-- The rule for a log that is empty at the start. -/
theorem log_of_step {P : List ι → σ → Prop}
    (hstep : ∀ l s e s', P l s → step s e = some s' → P (l ++ f s e) s')
    (h : P [] s) (hs : exec step s es = some s') :
  P (log step f s es) s'
  := induction_of_step hstep h hs

/-- An invariant of every step is an invariant of every run. -/
theorem invariant_of_step {I : σ → Prop} (hstep : ∀ s e s', I s → step s e = some s' → I s')
    (h : I s) (hs : exec step s es = some s') :
  I s'
  := by
  apply exec_invariant (C := fun _ _ => True) _ h (along_of_forall fun _ _ _ => trivial) hs
  intro s e s' hI _ he
  apply hstep s e s' hI he

/-- Along a run a condition holds at every step, or there is a first step at which it
fails. -/
theorem along_or_split (h : exec step s es = some s') :
  Along step C s es ∨ ∃ es₁ e es₂ s₁ s₂, es = es₁ ++ e :: es₂ ∧ exec step s es₁ = some s₁
    ∧ Along step C s es₁ ∧ ¬ C s₁ e ∧ step s₁ e = some s₂ ∧ exec step s₂ es₂ = some s'
  := by
  induction es generalizing s with
  | nil => exact .inl trivial
  | cons e es ih =>
      obtain ⟨s₁, h₁, h₂⟩ := exec_cons_iff.mp h
      by_cases hC : C s e
      · rcases ih h₂ with hes | ⟨es₁, e', es₂, s₂, s₃, rfl, hs₂, hes₁, hC', hs₃, hs⟩
        · left
          apply (along_cons h₁).mpr ⟨hC, hes⟩
        · refine .inr ⟨e :: es₁, e', es₂, s₂, s₃, rfl, ?_, ?_, hC', hs₃, hs⟩
          · apply exec_cons_iff.mpr ⟨s₁, h₁, hs₂⟩
          · apply (along_cons h₁).mpr ⟨hC, hes₁⟩
      · right
        exact ⟨[], e, es, s, s₁, rfl, rfl, trivial, hC, h₁, h₂⟩

/-- Two conditions hold along the same runs when they agree where `I` holds, and `I` is kept by
the steps that meet them. -/
theorem along_congr {C' : σ → ε → Prop} {I : σ → Prop}
    (hiff : ∀ s e s', I s → step s e = some s' → (C s e ↔ C' s e))
    (hkeep : ∀ s e s', I s → C' s e → step s e = some s' → I s')
    (h : I s) (hs : exec step s es = some s') :
  Along step C s es ↔ Along step C' s es
  := by
  induction es generalizing s with
  | nil => exact Iff.rfl
  | cons e es ih =>
      obtain ⟨s₁, h₁, h₂⟩ := exec_cons_iff.mp hs
      rw [along_cons h₁, along_cons h₁, hiff s e s₁ h h₁]
      apply and_congr_right
      intro hC'
      apply ih (hkeep s e s₁ h hC' h₁) h₂

/-- A property holds throughout a run when it holds up to its last step and after it. -/
theorem throughout_snoc {I : σ → Prop} (h : exec step s es = some s') (he : step s' e = some s'') :
  Throughout step I s (es ++ [e]) ↔ Throughout step I s es ∧ I s''
  := by
  constructor
  · intro hall
    constructor
    · rintro es₁ es₂ s₁ rfl h₁
      apply hall es₁ (es₂ ++ [e]) s₁ (List.append_assoc _ _ _) h₁
    · apply hall (es ++ [e]) [] s'' (List.append_nil _).symm (exec_snoc h he)
  · rintro ⟨hall, hlast⟩ es₁ es₂ s₁ heq h₁
    rcases List.eq_nil_or_concat es₂ with rfl | ⟨es₂, e', rfl⟩
    · obtain rfl : es ++ [e] = es₁ := by simpa using heq
      obtain rfl : s'' = s₁ := Option.some.inj ((exec_snoc h he).symm.trans h₁)
      apply hlast
    · rw [List.concat_eq_append, ← List.append_assoc] at heq
      obtain ⟨rfl, -⟩ := List.append_inj' heq rfl
      apply hall es₁ es₂ s₁ rfl h₁

/-- When a property is kept by the steps that meet `C` and by no others, it holds throughout
the runs whose steps meet `C` and no others. The property may rest on an invariant `J` of all
steps. -/
theorem throughout_iff_along {I J : σ → Prop}
    (hJ : ∀ s e s', J s → step s e = some s' → J s')
    (hstep : ∀ s e s', J s → I s → step s e = some s' → (I s' ↔ C s e))
    (h : J s) (hI : I s) (hs : exec step s es = some s') :
  Throughout step I s es ↔ Along step C s es
  := by
  have hinvariant : ∀ {es s'}, exec step s es = some s' → J s' :=
    invariant_of_step hJ h
  constructor
  · intro hall
    rcases along_or_split (C := C) hs with halong | ⟨es₁, e, es₂, s₁, s₂, rfl, h₁, -, hnot, he, -⟩
    · apply halong
    · have hI₁ := hall es₁ (e :: es₂) s₁ rfl h₁
      have hI₂ := hall (es₁ ++ [e]) es₂ s₂ (by simp) (exec_snoc h₁ he)
      exact absurd ((hstep s₁ e s₂ (hinvariant h₁) hI₁ he).mp hI₂) hnot
  · rintro halong es₁ es₂ s₁ rfl h₁
    have halong₁ := ((along_append h₁).mp halong).1
    apply (exec_invariant (I := fun s => J s ∧ I s) _ ⟨h, hI⟩ halong₁ h₁).2
    rintro s e s' ⟨hJs, hIs⟩ hC he
    use hJ s e s' hJs he, (hstep s e s' hJs hIs he).mpr hC

/-- The rule for a property that rests on no other. -/
theorem throughout_iff_along_of_step {I : σ → Prop}
    (hstep : ∀ s e s', I s → step s e = some s' → (I s' ↔ C s e))
    (hI : I s) (hs : exec step s es = some s') :
  Throughout step I s es ↔ Along step C s es
  := by
  apply throughout_iff_along (J := fun _ => True) _ _ trivial hI hs
  · intro s e s' _ _
    trivial
  · intro s e s' _ hIs he
    apply hstep s e s' hIs he

end Run

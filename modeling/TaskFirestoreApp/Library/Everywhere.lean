import TaskFirestoreApp.Library.Backend

/-!
# Properties of every version of every document

`Everywhere P I w` says that every version of a document in the world `w` satisfies `P` at
its id: on the server, in a write that has not arrived, and in an answer that has not been
delivered; and that the state of every app satisfies `I`. Arrivals and answers only move
versions around, so a step preserves it as soon as the handler it runs does, which is what
`Effect.Respects` says of the effect of a handler.
-/

namespace Backend

open Collection

variable {D App Action Input Id Doc Query Tag : Type*} [DecidableEq Id]
  {P P' : Id → Doc → Prop} {I I' : App → Prop}

/-- Every version of a document satisfies `P` at its id, and every app satisfies `I`. -/
structure Everywhere (P : Id → Doc → Prop) (I : App → Prop) (w : World D App Id Doc Query Tag) :
    Prop where
  server : Collection.All P w.server
  unarrived : ∀ d, ∀ x ∈ (w.device d).client.unarrived, x.All P
  results : ∀ d, ∀ r ∈ (w.device d).client.results, Collection.All P r.2
  app : ∀ d, I (w.device d).app

/-- The app an effect leaves satisfies `I`, and so do the documents it writes `P`. -/
structure Effect.Respects (P : Id → Doc → Prop) (I : App → Prop)
    (eff : Effect App Id Doc Query Tag) : Prop where
  app : I eff.1
  written : ∀ x ∈ eff.2.filterMap Command.written, x.All P

namespace Everywhere

variable {w w' : World D App Id Doc Query Tag}

theorem mono (hP : ∀ i d, P i d → P' i d) (hI : ∀ a, I a → I' a) (h : Everywhere P I w) :
  Everywhere P' I' w
  where
  server := h.server.mono hP
  unarrived d x hx := (h.unarrived d x hx).mono hP
  results d r hr := (h.results d r hr).mono hP
  app d := hI _ (h.app d)

/-- Where nothing is stored, issued or found, the apps are all that counts. -/
theorem of_empty (hserver : w.server = ∅) (hclient : ∀ d, (w.device d).client = ⟨[], [], [], []⟩)
    (happ : ∀ d, I (w.device d).app) :
  Everywhere P I w
  where
  server := hserver ▸ all_empty
  unarrived d x hx := by simp [hclient] at hx
  results d r hr := by simp [hclient] at hr
  app := happ

/-- What a device sees satisfies `P`. -/
theorem view (h : Everywhere P I w) (d : D) :
  Collection.All P (w.view d)
  := all_overlay h.server (h.unarrived d)

variable [DecidableEq Doc] [DecidableEq D] {Pr : Program App Action Input Id Doc Query Tag}
  {e : Event D Action Input}

/-- A step preserves a property of all versions when the handler it runs does. The
property may grow with the step. -/
theorem step (hP : ∀ i d, P i d → P' i d) (hI : ∀ a, I a → I' a) (hstop : ∀ a, I' (Pr.stop a))
    (hhandler : ∀ d c eff, handler Pr w e = some (d, c, some eff) →
      Backend.settle Pr w d c (some eff) = some w' → eff.Respects P' I')
    (h : Everywhere P I w) (hs : Backend.step Pr w e = some w') :
  Everywhere P' I' w'
  := by
  have h' := h.mono hP hI
  constructor
  · rcases server_step hs with hserver | ⟨d, x, hx, hserver⟩
    · rw [hserver]
      apply h'.server
    · rw [hserver]
      apply all_apply h'.server (h'.unarrived d x hx)
  · intro d x hx
    rcases mem_unarrived_step hs hx with hx | ⟨c, app, cs, hh, hsettle, hx⟩
    · apply h'.unarrived d x hx
    · apply (hhandler d c _ hh hsettle).written x hx
  · intro d r hr
    rcases mem_results_step hs hr with hr | ⟨-, hr⟩
    · apply h'.results d r hr
    · rw [hr]
      apply h'.view
  · intro d
    rcases app_step hs d with happ | happ | ⟨c, cs, hh, hsettle⟩
    · rw [happ]
      apply h'.app
    · rw [happ]
      apply hstop
    · apply (hhandler d c _ hh hsettle).app

end Everywhere

end Backend

/-!
# What can be seen of a run

A sequence of operations is seen through the answers that they give and through
what the state shows after each of them (`trace`).  Two states that are related by
a relation which every operation respects cannot be told apart, be they states of one
system or of two (`trace_congr`).
-/

namespace PlayStation

variable {State State' Operation Answer Shown : Type}

/-- The answers of a sequence of operations, each with what the state shows then. -/
def trace (perform : State → Operation → Answer × State) (show' : State → Shown) (s : State) :
    List Operation → List (Answer × Shown)
  | [] => []
  | operation :: later =>
    ((perform s operation).1, show' (perform s operation).2) ::
      trace perform show' (perform s operation).2 later

/-- **States that answer alike and stay related show the same for ever.** -/
theorem trace_congr {perform : State → Operation → Answer × State}
    {perform' : State' → Operation → Answer × State'} {show₁ : State → Shown}
    {show₂ : State' → Shown} {R : State → State' → Prop}
    (hperform : ∀ {s t}, R s t → ∀ operation, (perform s operation).1 = (perform' t operation).1 ∧
      R (perform s operation).2 (perform' t operation).2)
    (hshow : ∀ {s t}, R s t → show₁ s = show₂ t) {s : State} {t : State'} (h : R s t)
    (later : List Operation) : trace perform show₁ s later = trace perform' show₂ t later := by
  induction later generalizing s t with
  | nil => rfl
  | cons operation later ih =>
      obtain ⟨hanswer, hstate⟩ := hperform h operation
      rw [trace, trace, hanswer, hshow hstate, ih hstate]

end PlayStation

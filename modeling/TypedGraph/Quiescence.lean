/-!
# Running to Quiescence

A system of tasks that take steps until all of them wait. Every step lowers a weight, so this ends.
What every step keeps holds in the end, and also after steps that are given one by one.
-/

namespace TypedGraph

/-- Takes steps as long as there is one. -/
def untilQuiet {σ : Type u} (step? : σ → Option σ) (weight : σ → Nat)
    (lighter : ∀ s s', step? s = some s' → weight s' < weight s) (s : σ) : σ :=
  match h : step? s with
  | some s' =>
    have : weight s' < weight s := lighter s s' h
    untilQuiet step? weight lighter s'
  | none => s
termination_by weight s

/-- No step is left when all is quiet. -/
theorem step?_untilQuiet {σ : Type u} (step? : σ → Option σ) (weight : σ → Nat)
    (lighter : ∀ s s', step? s = some s' → weight s' < weight s) (s : σ) :
    step? (untilQuiet step? weight lighter s) = none := by
  fun_induction untilQuiet step? weight lighter s with
  | case1 s s' h _ ih => exact ih
  | case2 s h => exact h

/-- What every step keeps holds when all is quiet. -/
theorem untilQuiet_induction {σ : Type u} {step? : σ → Option σ} {weight : σ → Nat}
    {lighter : ∀ s s', step? s = some s' → weight s' < weight s} {P : σ → Prop}
    (hstep : ∀ s s', P s → step? s = some s' → P s') {s : σ} (h : P s) :
    P (untilQuiet step? weight lighter s) := by
  fun_induction untilQuiet step? weight lighter s with
  | case1 s s' hs' _ ih => exact ih (hstep s s' h hs')
  | case2 s _ => exact h

/-- What every step keeps holds after steps that are given, if they can be taken. -/
theorem foldlM_induction {σ : Type u} {ε : Type v} {next? : σ → ε → Option σ} {P : σ → Prop}
    (hnext : ∀ s e s', P s → next? s e = some s' → P s') {l : List ε} {s s' : σ}
    (hrun : l.foldlM next? s = some s') (h : P s) : P s' := by
  induction l generalizing s with
  | nil =>
    cases hrun
    exact h
  | cons e l ih =>
    rw [List.foldlM_cons] at hrun
    obtain ⟨s₁, he, hrest⟩ := Option.bind_eq_some_iff.1 hrun
    exact ih hrest (hnext s e s₁ h he)

/-- What holds before the first step, and is extended by every step to one step more, holds of all
steps that are given and what they lead to, if they can be taken. -/
theorem foldlM_concat_induction {σ : Type u} {ε : Type v} {next? : σ → ε → Option σ}
    {P : List ε → σ → Prop} {s₀ s : σ} {l : List ε} (hnil : P [] s₀)
    (hconcat : ∀ l s e s', P l s → next? s e = some s' → P (l ++ [e]) s')
    (hrun : l.foldlM next? s₀ = some s) : P l s := by
  have hfrom (done rest : List ε) (s₁ : σ) (h : P done s₁) (hrest : rest.foldlM next? s₁ = some s) :
      P (done ++ rest) s := by
    induction rest generalizing done s₁ with
    | nil =>
      cases hrest
      rwa [List.append_nil]
    | cons e rest ih =>
      rw [List.foldlM_cons] at hrest
      obtain ⟨s₂, he, hrest⟩ := Option.bind_eq_some_iff.1 hrest
      rw [List.append_cons]
      exact ih (done ++ [e]) s₂ (hconcat done s₁ e s₂ h he) hrest
  exact hfrom [] l s₀ hnil hrun

end TypedGraph

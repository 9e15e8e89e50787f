import GameRules.Effect.Decode

/-!
# The views that effects refer to

Views are referred to by the targets of a change or of a removal, and by the source of a value. Here
the references of an effect are listed and changed, each at its place and everything else as it is.
A change of a reference may fail, and then that of the effect fails too.
-/

namespace GameRules

/-- The references to views in the source of a value. -/
def ValueExpression.views : ValueExpression → List ViewRef
  | viewResult view _ => [view]
  | distance .. | field _ | literal _ | transform _ => []

/-- The references to views in a change of a location. -/
def Change.views : Change → List ViewRef
  | setFromView value => value.views
  | set _ | increment _ | decrement _ | transform _ => []

mutual

/-- The references to views in an effect. -/
def Effect.views : Effect → List ViewRef
  | .mutate targets _ change => targets.toList ++ change.views
  | .destroy targets => targets.toList
  | .branch _ consequent alternative =>
    Effect.viewsOfAll consequent ++ Effect.viewsOfAll alternative
  | .sequence effects => Effect.viewsOfAll effects
  | .spawn .. | .emit .. | .control .. | .log .. => []

/-- The references to views in the effects of a list. -/
def Effect.viewsOfAll : List Effect → List ViewRef
  | [] => []
  | effect :: effects => effect.views ++ Effect.viewsOfAll effects

end

variable (change : ViewRef → Option ViewRef)

/-- The source of a value with its reference to a view changed. -/
def ValueExpression.mapViews? : ValueExpression → Option ValueExpression
  | viewResult view params => do return viewResult (← change view) params
  | distance start finish unit => some (distance start finish unit)
  | field path => some (field path)
  | literal value => some (literal value)
  | transform computation => some (transform computation)

/-- The change of a location with its reference to a view changed. -/
def Change.mapViews? : Change → Option Change
  | set value => some (set value)
  | increment step => some (increment step)
  | decrement step => some (decrement step)
  | transform computation => some (transform computation)
  | setFromView value => do return setFromView (← value.mapViews? change)

mutual

/-- The effect with each of its references to views changed. -/
def Effect.mapViews? : Effect → Option Effect
  | .mutate targets path action => do
    return .mutate (← targets.mapM change) path (← action.mapViews? change)
  | .destroy targets => do return .destroy (← targets.mapM change)
  | .branch condition consequent alternative => do
    return .branch condition (← Effect.mapAllViews? consequent) (← Effect.mapAllViews? alternative)
  | .sequence effects => do return .sequence (← Effect.mapAllViews? effects)
  | .spawn entity fields => some (.spawn entity fields)
  | .emit event payload => some (.emit event payload)
  | .control op target => some (.control op target)
  | .log message level => some (.log message level)

/-- The effects of a list with each of their references to views changed. -/
def Effect.mapAllViews? : List Effect → Option (List Effect)
  | [] => some []
  | effect :: effects => do return (← effect.mapViews?) :: (← Effect.mapAllViews? effects)

end

variable {change} {later : ViewRef → Option ViewRef}

/-- The targets change at once as they change in two steps. -/
theorem ViewRef.mapM_bind (targets : Option ViewRef) :
    (targets.mapM change).bind (fun changed => changed.mapM later) =
      targets.mapM fun view => (change view).bind later := by
  cases targets with
  | none => rfl
  | some view =>
    cases found : change view with
    | none => simp [found]
    | some view => simp [found]

/-- The source of a value changes at once as it changes in two steps. -/
theorem ValueExpression.mapViews?_bind (expression : ValueExpression) :
    (expression.mapViews? change).bind (mapViews? later) =
      expression.mapViews? fun view => (change view).bind later := by
  cases expression with
  | viewResult view params =>
    cases found : change view with
    | none => simp [mapViews?, found]
    | some view => simp [mapViews?, found]
  | distance | field | literal | transform => rfl

/-- A change of a location changes at once as it changes in two steps. -/
theorem Change.mapViews?_bind (action : Change) :
    (action.mapViews? change).bind (mapViews? later) =
      action.mapViews? fun view => (change view).bind later := by
  cases action with
  | setFromView value =>
    simp only [mapViews?]
    rw [← ValueExpression.mapViews?_bind]
    cases value.mapViews? change with
    | none => rfl
    | some value => simp [mapViews?]
  | set | increment | decrement | transform => rfl

mutual

/-- An effect changes at once as it changes in two steps. -/
theorem Effect.mapViews?_bind : ∀ effect : Effect,
    (effect.mapViews? change).bind (Effect.mapViews? later) =
      effect.mapViews? fun view => (change view).bind later
  | .mutate targets path action => by
    simp only [Effect.mapViews?]
    rw [← ViewRef.mapM_bind, ← Change.mapViews?_bind]
    cases targets.mapM change with
    | none => rfl
    | some targets =>
      cases action.mapViews? change with
      | none => simp
      | some action => simp [Effect.mapViews?]
  | .destroy targets => by
    simp only [Effect.mapViews?]
    rw [← ViewRef.mapM_bind]
    cases targets.mapM change with
    | none => rfl
    | some targets => simp [Effect.mapViews?]
  | .branch condition consequent alternative => by
    simp only [Effect.mapViews?]
    rw [← Effect.mapAllViews?_bind consequent, ← Effect.mapAllViews?_bind alternative]
    cases Effect.mapAllViews? change consequent with
    | none => rfl
    | some consequent =>
      cases Effect.mapAllViews? change alternative with
      | none => simp
      | some alternative => simp [Effect.mapViews?]
  | .sequence effects => by
    simp only [Effect.mapViews?]
    rw [← Effect.mapAllViews?_bind effects]
    cases Effect.mapAllViews? change effects with
    | none => rfl
    | some effects => simp [Effect.mapViews?]
  | .spawn .. => rfl
  | .emit .. => rfl
  | .control .. => rfl
  | .log .. => rfl

/-- The effects of a list change at once as they change in two steps. -/
theorem Effect.mapAllViews?_bind : ∀ effects : List Effect,
    (Effect.mapAllViews? change effects).bind (Effect.mapAllViews? later) =
      Effect.mapAllViews? (fun view => (change view).bind later) effects
  | [] => rfl
  | effect :: effects => by
    simp only [Effect.mapAllViews?]
    rw [← Effect.mapViews?_bind effect, ← Effect.mapAllViews?_bind effects]
    cases effect.mapViews? change with
    | none => rfl
    | some effect =>
      cases Effect.mapAllViews? change effects with
      | none => simp
      | some effects => simp [Effect.mapAllViews?]

end

/-- Targets are kept when each reference is. -/
theorem ViewRef.mapM_eq_self_iff {targets : Option ViewRef} :
    targets.mapM change = some targets ↔ ∀ view ∈ targets.toList, change view = some view := by
  cases targets with
  | none => simp
  | some view => simp

/-- The source of a value is kept when its reference is. -/
theorem ValueExpression.mapViews?_eq_self_iff {expression : ValueExpression} :
    expression.mapViews? change = some expression ↔
      ∀ view ∈ expression.views, change view = some view := by
  cases expression with
  | viewResult view params => simp [mapViews?, views, Option.bind_eq_some_iff]
  | distance | field | literal | transform => simp [mapViews?, views]

/-- A change of a location is kept when its reference is. -/
theorem Change.mapViews?_eq_self_iff {action : Change} :
    action.mapViews? change = some action ↔ ∀ view ∈ action.views, change view = some view := by
  cases action with
  | setFromView value =>
    rw [views, ← ValueExpression.mapViews?_eq_self_iff]
    simp [mapViews?, Option.bind_eq_some_iff]
  | set | increment | decrement | transform => simp [mapViews?, views]

mutual

/-- An effect is kept when each of its references to views is. -/
theorem Effect.mapViews?_eq_self_iff : ∀ effect : Effect,
    effect.mapViews? change = some effect ↔ ∀ view ∈ effect.views, change view = some view
  | .mutate targets path action => by
    rw [Effect.views, List.forall_mem_append, ← ViewRef.mapM_eq_self_iff,
      ← Change.mapViews?_eq_self_iff]
    simp [Effect.mapViews?, Option.bind_eq_some_iff]
  | .destroy targets => by
    rw [Effect.views, ← ViewRef.mapM_eq_self_iff]
    simp [Effect.mapViews?, Option.bind_eq_some_iff]
  | .branch condition consequent alternative => by
    rw [Effect.views, List.forall_mem_append, ← Effect.mapAllViews?_eq_self_iff consequent,
      ← Effect.mapAllViews?_eq_self_iff alternative]
    simp [Effect.mapViews?, Option.bind_eq_some_iff]
  | .sequence effects => by
    rw [Effect.views, ← Effect.mapAllViews?_eq_self_iff effects]
    simp [Effect.mapViews?, Option.bind_eq_some_iff]
  | .spawn .. => by simp [Effect.mapViews?, Effect.views]
  | .emit .. => by simp [Effect.mapViews?, Effect.views]
  | .control .. => by simp [Effect.mapViews?, Effect.views]
  | .log .. => by simp [Effect.mapViews?, Effect.views]

/-- The effects of a list are kept when each of their references to views is. -/
theorem Effect.mapAllViews?_eq_self_iff : ∀ effects : List Effect,
    Effect.mapAllViews? change effects = some effects ↔
      ∀ view ∈ Effect.viewsOfAll effects, change view = some view
  | [] => by simp [Effect.mapAllViews?, Effect.viewsOfAll]
  | effect :: effects => by
    rw [Effect.viewsOfAll, List.forall_mem_append, ← Effect.mapViews?_eq_self_iff effect,
      ← Effect.mapAllViews?_eq_self_iff effects]
    simp [Effect.mapAllViews?, Option.bind_eq_some_iff]

end

end GameRules

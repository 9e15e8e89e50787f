import GameRules.Cascade.Order

/-!
# The order of preference

Of two different rules exactly one is preferred. So rules in order of preference are determined by
which rules they are, and putting a new rule at its place keeps the order.
-/

namespace GameRules

namespace CascadeGraph

variable {graph : CascadeGraph}

/-- One rule is preferred to another: its priority is higher, or it comes first in the document and
both have the same priority. -/
def Before (graph : CascadeGraph) (left right : Nat) : Prop :=
  graph.priority right < graph.priority left ∨
    graph.priority left = graph.priority right ∧ left < right

/-- No rule is preferred to one that is preferred to it. -/
theorem Before.asymm {left right : Nat} (before : graph.Before left right) :
    ¬graph.Before right left := by
  rcases before with higher | ⟨same, first⟩
  · rintro (lower | ⟨same, -⟩) <;> omega
  · rintro (lower | ⟨-, second⟩) <;> omega

/-- Preference is transitive. -/
theorem Before.trans {left middle right : Nat} (first : graph.Before left middle)
    (second : graph.Before middle right) : graph.Before left right := by
  unfold Before at *
  omega

/-- Of two different rules one is preferred. -/
theorem before_or_before {left right : Nat} (different : left ≠ right) :
    graph.Before left right ∨ graph.Before right left := by
  unfold Before
  omega

/-- The comparison of the worklist is preference or equality. -/
theorem prefers_iff {left right : Nat} :
    graph.prefers left right = true ↔ graph.Before left right ∨ left = right := by
  unfold prefers Before
  simp only [Bool.or_eq_true, decide_eq_true_eq, Bool.and_eq_true, beq_iff_eq]
  constructor
  · rintro (higher | ⟨same, first⟩)
    · exact .inl (.inl higher)
    · omega
  · rintro ((higher | ⟨same, first⟩) | rfl)
    · exact .inl higher
    · exact .inr ⟨same, Nat.le_of_lt first⟩
    · exact .inr ⟨rfl, Nat.le_refl _⟩

/-- Rules in order of preference. -/
def Sorted (graph : CascadeGraph) (rules : List Nat) : Prop := rules.Pairwise graph.Before

/-- The rules of an inserted list are the old ones and the new one. -/
theorem insertReady_perm (graph : CascadeGraph) (rule : Nat) (rules : List Nat) :
    (graph.insertReady rule rules).Perm (rule :: rules) := by
  induction rules with
  | nil => exact .refl _
  | cons other rest ih =>
    rw [insertReady]
    split
    · exact .refl _
    · exact (ih.cons other).trans (.swap rule other rest)

/-- A new rule is put at its place. -/
theorem sorted_insertReady {rule : Nat} {rules : List Nat} (sorted : graph.Sorted rules)
    (new : rule ∉ rules) : graph.Sorted (graph.insertReady rule rules) := by
  induction rules with
  | nil => exact List.pairwise_singleton _ _
  | cons other rest ih =>
    obtain ⟨first, others⟩ := List.pairwise_cons.mp sorted
    have different : rule ≠ other := List.ne_of_not_mem_cons new
    rw [insertReady]
    split
    · rename_i prefers
      have before := (prefers_iff.mp prefers).resolve_right different
      refine List.pairwise_cons.mpr ⟨fun later member => ?_, sorted⟩
      rcases List.mem_cons.mp member with rfl | member
      · exact before
      · exact before.trans (first later member)
    · rename_i notPreferred
      have after : graph.Before other rule := by
        refine (before_or_before different).resolve_left fun before => notPreferred ?_
        exact prefers_iff.mpr (.inl before)
      refine List.pairwise_cons.mpr ⟨fun later member => ?_, ih others ?_⟩
      · rcases List.mem_cons.mp ((graph.insertReady_perm rule rest).mem_iff.mp member) with
          rfl | member
        · exact after
        · exact first later member
      · exact fun member => new (List.mem_cons_of_mem _ member)

/-- Inserting rules one by one keeps them in order of preference. -/
theorem foldl_insertReady {rules sorted : List Nat} (inOrder : graph.Sorted sorted)
    (nodup : (sorted ++ rules).Nodup) :
    graph.Sorted (rules.foldl (fun sorted rule => graph.insertReady rule sorted) sorted) ∧
      (rules.foldl (fun sorted rule => graph.insertReady rule sorted) sorted).Perm
        (sorted ++ rules) := by
  induction rules generalizing sorted with
  | nil => exact ⟨inOrder, by rw [List.append_nil]; exact .refl _⟩
  | cons rule rules ih =>
    have inserted := graph.insertReady_perm rule sorted
    have moved : (graph.insertReady rule sorted ++ rules).Perm (sorted ++ rule :: rules) :=
      (inserted.append_right rules).trans List.perm_middle.symm
    have new : rule ∉ sorted := by
      intro member
      exact (List.nodup_append.mp nodup).2.2 rule member rule List.mem_cons_self rfl
    obtain ⟨result, perm⟩ := ih (sorted_insertReady inOrder new) (moved.nodup_iff.mpr nodup)
    exact ⟨result, perm.trans moved⟩

/-- Rules are put in order of preference. -/
theorem sorted_byPreference {rules : List Nat} (nodup : rules.Nodup) :
    graph.Sorted (graph.byPreference rules) :=
  (foldl_insertReady List.Pairwise.nil nodup).1

/-- Putting rules in order of preference loses none and adds none. -/
theorem byPreference_perm {rules : List Nat} (nodup : rules.Nodup) :
    (graph.byPreference rules).Perm rules :=
  (foldl_insertReady List.Pairwise.nil nodup).2

/-- No rule stands twice in order of preference. -/
theorem Sorted.nodup {rules : List Nat} (sorted : graph.Sorted rules) : rules.Nodup := by
  refine List.Pairwise.imp (fun {left right} (before : graph.Before left right) same => ?_) sorted
  subst same
  exact before.asymm before

/-- Rules in order of preference are determined by which rules they are. -/
theorem Sorted.eq_of_mem_iff {left right : List Nat} (leftSorted : graph.Sorted left)
    (rightSorted : graph.Sorted right) (same : ∀ rule, rule ∈ left ↔ rule ∈ right) :
    left = right := by
  have perm : left.Perm right :=
    (List.perm_ext_iff_of_nodup leftSorted.nodup rightSorted.nodup).mpr same
  refine perm.eq_of_pairwise (fun first second _ _ before after => ?_) leftSorted rightSorted
  exact absurd after before.asymm

end CascadeGraph

end GameRules

import Mathlib.Order.Defs.LinearOrder
import Mathlib.Order.MinMax

/-!
# Least costs of walks

A search settles the nearest node that is left and relaxes its links.  Costs are any
linear order in which going on along a walk is monotone and never cheaper, up to the
cost of a node that has not been reached.
-/

namespace RuCCL.Library

section ShortestPath

variable {Node Weight Cost : Type} [LinearOrder Cost]

/-- How the cost of a walk grows. -/
structure CostOrder (extend : Cost → Weight → Cost) (zero unreached : Cost) :
    Prop where
  zero_le : zero ≤ unreached
  monotone : ∀ {less more : Cost} (weight : Weight), less ≤ more →
    extend less weight ≤ extend more weight
  inflating : ∀ {cost : Cost} (weight : Weight), cost ≤ unreached → cost ≤ extend cost weight
  bounded : ∀ (cost : Cost) (weight : Weight), extend cost weight ≤ unreached

/-- Walks from a source over the inner nodes, with their costs. -/
inductive Walk (extend : Cost → Weight → Cost) (zero : Cost)
    (linked : Node → Node → Option Weight) (inside : Node → Prop)
    (source : Node) : Node → Cost → Prop
  | start : Walk extend zero linked inside source source zero
  | step {node next : Node} {cost : Cost} {weight : Weight}
      (walk : Walk extend zero linked inside source node cost)
      (inner : inside next) (link : linked node next = some weight) :
      Walk extend zero linked inside source next (extend cost weight)

variable {extend : Cost → Weight → Cost} {zero unreached : Cost}
  {linked : Node → Node → Option Weight} {inside : Node → Prop}
  {source : Node}

theorem Walk.bounded (order : CostOrder extend zero unreached) {node : Node}
    {cost : Cost} (walk : Walk extend zero linked inside source node cost) :
    cost ≤ unreached := by
  cases walk with
  | start => exact order.zero_le
  | step walk inner link => exact order.bounded _ _

omit [LinearOrder Cost] in
/-- A walk stays one where there are as many nodes and links. -/
theorem Walk.mono {otherLinked : Node → Node → Option Weight}
    {other : Node → Prop} (members : ∀ node, inside node → other node)
    (links : ∀ node next weight, inside next →
      linked node next = some weight → otherLinked node next = some weight)
    {node : Node} {cost : Cost}
    (walk : Walk extend zero linked inside source node cost) :
    Walk extend zero otherLinked other source node cost := by
  induction walk with
  | start => exact .start
  | step walk inner link ih =>
      exact .step ih (members _ inner) (links _ _ _ inner link)

/-- What the distances and the visited nodes satisfy all along a search. -/
structure Settled (extend : Cost → Weight → Cost) (zero unreached : Cost)
    (linked : Node → Node → Option Weight) (inside : Node → Prop)
    (source : Node) (distances : Node → Cost) (visited : Node → Prop) :
    Prop where
  start : distances source ≤ zero
  bounded : ∀ node, distances node ≤ unreached
  reached : ∀ node, distances node ≠ unreached →
    Walk extend zero linked inside source node (distances node)
  visitedReached : ∀ node, visited node → distances node ≠ unreached
  least : ∀ node cost, visited node →
    Walk extend zero linked inside source node cost → distances node ≤ cost
  relaxed : ∀ node next weight, visited node → inside next → linked node next = some weight →
      distances next ≤ extend (distances node) weight

variable {distances : Node → Cost} {visited : Node → Prop}

/-- Nothing is visited and only the source is reached. -/
theorem settled_start (order : CostOrder extend zero unreached)
    (atSource : distances source = zero)
    (elsewhere : ∀ node, node ≠ source → distances node = unreached)
    (fresh : ∀ node, ¬visited node) :
    Settled extend zero unreached linked inside source distances visited := by
  refine ⟨atSource.le, ?_, ?_, fun node seen => absurd seen (fresh node),
    fun node _ seen => absurd seen (fresh node),
    fun node _ _ seen => absurd seen (fresh node)⟩
  · intro node
    by_cases same : node = source
    · rw [same, atSource]
      exact order.zero_le
    · exact (elsewhere node same).le
  · intro node reached
    by_cases same : node = source
    · rw [same, atSource]
      exact .start
    · exact absurd (elsewhere node same) reached

/-- Before a walk can be cheaper than its settled distance, it passes a node that
has not been visited and is no further than the walk is long. -/
theorem Settled.frontier (order : CostOrder extend zero unreached)
    (settled : Settled extend zero unreached linked inside source distances
      visited) (inner : inside source) {node : Node} {cost : Cost}
    (walk : Walk extend zero linked inside source node cost) :
    visited node ∨ ∃ border, inside border ∧ ¬visited border ∧ distances border ≤ cost := by
  induction walk with
  | start =>
      by_cases seen : visited source
      · exact Or.inl seen
      · exact Or.inr ⟨source, inner, seen, settled.start⟩
  | @step node next cost weight walk innerNext link ih =>
      by_cases seenNext : visited next
      · exact Or.inl seenNext
      refine Or.inr ?_
      rcases ih with seen | ⟨border, own, fresh, near⟩
      · refine ⟨next, innerNext, seenNext, ?_⟩
        calc distances next ≤ extend (distances node) weight :=
              settled.relaxed node next weight seen innerNext link
          _ ≤ extend cost weight := order.monotone weight (settled.least node cost seen walk)
      · refine ⟨border, own, fresh, ?_⟩
        exact near.trans (order.inflating weight (walk.bounded order))

/-- The nearest node that is left. -/
def Nearest (inside visited : Node → Prop) (distances : Node → Cost) (current : Node) : Prop :=
  inside current ∧ ¬visited current ∧ ∀ other, inside other → ¬visited other →
      distances current ≤ distances other

/-- No walk to any node that is left is cheaper than the nearest one. -/
theorem Settled.nearest_le (order : CostOrder extend zero unreached)
    (settled : Settled extend zero unreached linked inside source distances
      visited) (inner : inside source) {current node : Node} {cost : Cost}
    (nearest : Nearest inside visited distances current)
    (fresh : ¬visited node)
    (walk : Walk extend zero linked inside source node cost) :
    distances current ≤ cost := by
  rcases settled.frontier order inner walk with
    seen | ⟨border, own, left, near⟩
  · exact absurd seen fresh
  · exact (nearest.2.2 border own left).trans near

/-- The nodes whose distance a visit may change. -/
def Relaxes (linked : Node → Node → Option Weight)
    (inside visited : Node → Prop) (current next : Node) : Prop :=
  inside next ∧ ¬visited next ∧ next ≠ current ∧ linked current next ≠ none

/-- Visiting the nearest node and relaxing its links. -/
theorem Settled.visit (order : CostOrder extend zero unreached)
    (settled : Settled extend zero unreached linked inside source distances
      visited) (inner : inside source) {current : Node}
    (nearest : Nearest inside visited distances current)
    (found : distances current ≠ unreached) {later : Node → Cost}
    (improved : ∀ next weight, Relaxes linked inside visited current next →
      linked current next = some weight → later next =
        min (distances next) (extend (distances current) weight))
    (kept : ∀ next, ¬Relaxes linked inside visited current next → later next = distances next) :
    Settled extend zero unreached linked inside source later
      fun node => visited node ∨ node = current := by
  have below : ∀ node, later node ≤ distances node := by
    intro node
    by_cases changed : Relaxes linked inside visited current node
    · obtain ⟨weight, link⟩ := Option.ne_none_iff_exists'.mp changed.2.2.2
      rw [improved node weight changed link]
      exact min_le_left _ _
    · rw [kept node changed]
  have same : ∀ node, visited node ∨ node = current → later node = distances node := by
    intro node seen
    refine kept node fun changed => ?_
    rcases seen with old | new
    · exact changed.2.1 old
    · exact changed.2.2.1 new
  have seenReached : ∀ node, visited node ∨ node = current → distances node ≠ unreached := by
    rintro node (seen | rfl)
    · exact settled.visitedReached node seen
    · exact found
  have least : ∀ node cost, visited node ∨ node = current →
      Walk extend zero linked inside source node cost → distances node ≤ cost := by
    rintro node cost (seen | rfl) walk
    · exact settled.least node cost seen walk
    · exact settled.nearest_le order inner nearest nearest.2.1 walk
  refine ⟨(below source).trans settled.start,
    fun node => (below node).trans (settled.bounded node), ?_, ?_, ?_, ?_⟩
  · intro node reached
    by_cases changed : Relaxes linked inside visited current node
    · obtain ⟨weight, link⟩ := Option.ne_none_iff_exists'.mp changed.2.2.2
      rw [improved node weight changed link] at reached ⊢
      rcases min_choice (distances node) (extend (distances current) weight) with old | new
      · rw [old] at reached ⊢
        exact settled.reached node reached
      · rw [new]
        exact .step (settled.reached current found) changed.1 link
    · rw [kept node changed] at reached ⊢
      exact settled.reached node reached
  · intro node seen
    rw [same node seen]
    exact seenReached node seen
  · intro node cost seen walk
    rw [same node seen]
    exact least node cost seen walk
  · intro node next weight seen own link
    rw [same node seen]
    by_cases seenNext : visited next ∨ next = current
    · rw [same next seenNext]
      exact least next _ seenNext (.step (settled.reached node (seenReached node seen)) own link)
    · rw [not_or] at seenNext
      rcases seen with seen | rfl
      · exact (below next).trans (settled.relaxed node next weight seen own link)
      · have changed : Relaxes linked inside visited node next := by
          refine ⟨own, seenNext.1, seenNext.2, ?_⟩
          rw [link]
          exact Option.some_ne_none _
        rw [improved next weight changed link]
        exact min_le_right _ _

end ShortestPath

end RuCCL.Library

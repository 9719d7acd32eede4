import RuCCL.Library.Writes
import RuCCL.Rank.TopologyText

/-!
# The matrices of a topology

Links are undirected: each of the matrices is symmetric and has nothing on its
diagonal, whichever calls and texts a topology has come from.  Rails grow with the
rail of a new link, so the last of them has a link.
-/

namespace RuCCL.Rank

open RuCCL.Library

namespace CollectiveTopology

section Entries

variable {α : Type} {size : Nat} {good : α → Prop} {matrix : List (List (Option α))}

theorem entryAt_emptyMatrix (size first second : Nat) :
    entryAt (emptyMatrix α size) first second = none := by
  rw [entryAt, emptyMatrix, List.getElem?_replicate]
  split
  case isTrue =>
    rw [Option.bind_some, List.getElem?_replicate]
    split <;> rfl
  case isFalse => rfl

/-- Every entry of a square matrix can be read. -/
theorem Square.exists_entry (square : Square size good matrix)
    {first second : Nat} (inFirst : first < size)
    (inSecond : second < size) :
    ∃ row, matrix[first]? = some row ∧ row[second]? = some (entryAt matrix first second) := by
  obtain ⟨length, rows⟩ := square
  have inside : first < matrix.length := by
    rw [length]
    exact inFirst
  have row := List.getElem?_eq_getElem inside
  have within : second < matrix[first].length := by
    rw [(rows _ (List.getElem_mem inside)).1]
    exact inSecond
  refine ⟨_, row, ?_⟩
  rw [entryAt, row, Option.bind_some, List.getElem?_eq_getElem within]
  rfl

theorem Square.entry_good (square : Square size good matrix) {first second : Nat} {value : α}
    (found : entryAt matrix first second = some value) : good value := by
  rw [entryAt, Option.join_eq_some_iff] at found
  obtain ⟨row, located, inRow⟩ := Option.bind_eq_some_iff.mp found
  exact (square.2 row (List.mem_of_getElem? located)).2 _ (List.mem_of_getElem? inRow) value rfl

theorem Square.entry_inside (square : Square size good matrix) {first second : Nat} {value : α}
    (found : entryAt matrix first second = some value) :
    first < size ∧ second < size := by
  rw [entryAt, Option.join_eq_some_iff] at found
  obtain ⟨row, located, inRow⟩ := Option.bind_eq_some_iff.mp found
  obtain ⟨inside, _⟩ := List.getElem?_eq_some_iff.mp located
  obtain ⟨within, _⟩ := List.getElem?_eq_some_iff.mp inRow
  rw [square.1] at inside
  rw [(square.2 row (List.mem_of_getElem? located)).1] at within
  exact ⟨inside, within⟩

/-- Square matrices with the same entries are equal. -/
theorem Square.ext {other : List (List (Option α))}
    (square : Square size good matrix) (otherSquare : Square size good other)
    (same : ∀ first second, first < size → second < size →
      entryAt matrix first second = entryAt other first second) :
    matrix = other := by
  refine List.ext_getElem? fun first => ?_
  by_cases inFirst : first < size
  · have leftRow : first < matrix.length := by
      rw [square.1]
      exact inFirst
    have rightRow : first < other.length := by
      rw [otherSquare.1]
      exact inFirst
    rw [List.getElem?_eq_getElem leftRow, List.getElem?_eq_getElem rightRow]
    refine congrArg some (List.ext_getElem? fun second => ?_)
    by_cases inSecond : second < size
    · obtain ⟨left, leftFound, leftEntry⟩ := square.exists_entry inFirst inSecond
      obtain ⟨right, rightFound, rightEntry⟩ := otherSquare.exists_entry inFirst inSecond
      rw [List.getElem?_eq_getElem leftRow] at leftFound
      rw [List.getElem?_eq_getElem rightRow] at rightFound
      rw [Option.some.inj leftFound, Option.some.inj rightFound, leftEntry,
        rightEntry, same first second inFirst inSecond]
    · have leftWidth := (square.2 _ (List.getElem_mem leftRow)).1
      have rightWidth := (otherSquare.2 _ (List.getElem_mem rightRow)).1
      rw [List.getElem?_eq_none (by omega),
        List.getElem?_eq_none (by omega)]
  · have leftLength := square.1
    have rightLength := otherSquare.1
    rw [List.getElem?_eq_none (by omega), List.getElem?_eq_none (by omega)]

theorem Square.entryAt_setEntry (square : Square size good matrix)
    {row column : Nat} (inRow : row < size) (inColumn : column < size)
    (value : α) (first second : Nat) :
    entryAt (Rank.setEntry matrix row column value) first second =
      if first = row ∧ second = column then some value
      else entryAt matrix first second := by
  have inside : row < matrix.length := by
    rw [square.1]
    exact inRow
  rw [entryAt, Rank.setEntry, List.getElem?_modify]
  by_cases sameRow : row = first
  · subst sameRow
    simp only [List.getElem?_eq_getElem inside, Option.map_eq_map,
      Option.map_some, Option.bind_some, if_true, true_and]
    have width := (square.2 _ (List.getElem_mem inside)).1
    rw [List.getElem?_set, width]
    by_cases sameColumn : column = second
    · subst sameColumn
      rw [if_pos rfl, if_pos inColumn, if_pos rfl]
      rfl
    · rw [if_neg sameColumn, if_neg (fun same => sameColumn same.symm),
        entryAt, List.getElem?_eq_getElem inside, Option.bind_some]
  · rw [if_neg (fun same => sameRow same.1.symm), entryAt]
    simp only [sameRow, if_false, id_map']

/-- A link between two ranks, in either direction. -/
def Joins (row column first second : Nat) : Prop :=
  (first = row ∧ second = column) ∨ (first = column ∧ second = row)

instance (row column first second : Nat) : Decidable (Joins row column first second) :=
  inferInstanceAs (Decidable (_ ∨ _))

theorem Square.entryAt_setBoth (square : Square size good matrix)
    {row column : Nat} (inRow : row < size) (inColumn : column < size)
    {value : α} (fine : good value) (first second : Nat) :
    entryAt (Rank.setBoth matrix row column value) first second =
      if Joins row column first second then some value
      else entryAt matrix first second := by
  rw [Rank.setBoth, (square.setEntry row column fine).entryAt_setEntry
    inColumn inRow, square.entryAt_setEntry inRow inColumn]
  by_cases back : first = column ∧ second = row
  · have joined : Joins row column first second := Or.inr back
    rw [if_pos back, if_pos joined]
  · rw [if_neg back]
    by_cases forth : first = row ∧ second = column
    · have joined : Joins row column first second := Or.inl forth
      rw [if_pos forth, if_pos joined]
    · rw [if_neg forth, if_neg]
      rintro (same | same)
      · exact forth same
      · exact back same

end Entries

/-- A square matrix of links without directions and without self links. -/
structure Undirected {α : Type} (size : Nat) (good : α → Prop)
    (matrix : List (List (Option α))) : Prop where
  square : Square size good matrix
  symmetric : ∀ first second, entryAt matrix first second = entryAt matrix second first
  loopless : ∀ rank, entryAt matrix rank rank = none

section Undirected

variable {α : Type} {size : Nat} {good : α → Prop} {matrix : List (List (Option α))}

theorem undirected_emptyMatrix : Undirected size good (emptyMatrix α size) := by
  refine ⟨square_emptyMatrix, fun first second => ?_, fun rank => ?_⟩
  · rw [entryAt_emptyMatrix, entryAt_emptyMatrix]
  · rw [entryAt_emptyMatrix]

theorem Undirected.setBoth (undirected : Undirected size good matrix)
    {row column : Nat} (inRow : row < size) (inColumn : column < size)
    (apart : row ≠ column) {value : α} (fine : good value) :
    Undirected size good (Rank.setBoth matrix row column value) := by
  have entries := undirected.square.entryAt_setBoth inRow inColumn fine
  refine ⟨undirected.square.setBoth row column fine, ?_, ?_⟩
  · intro first second
    rw [entries, entries, undirected.symmetric first second]
    have same : Joins row column first second ↔
        Joins row column second first := by
      unfold Joins
      omega
    by_cases joined : Joins row column first second
    · rw [if_pos joined, if_pos (same.mp joined)]
    · rw [if_neg joined, if_neg (fun other => joined (same.mpr other))]
  · intro rank
    rw [entries, if_neg, undirected.loopless]
    unfold Joins
    omega

/-- Undirected links are those above the diagonal. -/
theorem Undirected.ext {other : List (List (Option α))} (undirected : Undirected size good matrix)
    (otherUndirected : Undirected size good other)
    (same : ∀ first second, first < second → second < size →
      entryAt matrix first second = entryAt other first second) :
    matrix = other := by
  refine undirected.square.ext otherUndirected.square ?_
  intro first second inFirst inSecond
  rcases Nat.lt_trichotomy first second with below | equal | above
  · exact same first second below inSecond
  · rw [equal, undirected.loopless, otherUndirected.loopless]
  · rw [undirected.symmetric, otherUndirected.symmetric first second]
    exact same second first above inFirst

end Undirected

/-- The links between two ranks are good when they have a bandwidth. -/
abbrev GoodCost (cost : LinkCost) : Prop := cost.bandwidthMbps ≠ 0

/-- What the matrices of every topology satisfy. -/
structure Represented (topology : CollectiveTopology) : Prop where
  someRank : topology.worldSize ≠ 0
  links : Undirected topology.worldSize GoodCost topology.links
  railLinks : ∀ links ∈ topology.railLinks, Undirected topology.worldSize GoodCost links
  railCount : topology.railLinks.length ≤ maxP2pRails
  lastRail : ∀ links, topology.railLinks.getLast? = some links →
    ∃ first second cost, entryAt links first second = some cost
  aggregateLinks : Undirected topology.worldSize (· ≠ 0) topology.aggregateLinks

variable {topology after : CollectiveTopology}

theorem represented_empty {worldSize : Nat}
    (made : empty worldSize = .ok topology) : topology.Represented := by
  obtain ⟨_, some, made⟩ := of_bind made
  cases made
  refine ⟨(rejectIf_eq_ok_iff ..).mp some, undirected_emptyMatrix,
    fun links among => ?_, Nat.zero_le _, fun links last => ?_,
    undirected_emptyMatrix⟩
  · cases among
  · cases last

/-- What a new link has passed. -/
theorem checkLink_eq_ok_iff {first second bandwidth : Nat} {done : Unit} :
    topology.checkLink first second bandwidth = .ok done ↔
      first < topology.worldSize ∧ second < topology.worldSize ∧
        first ≠ second ∧ bandwidth ≠ 0 := by
  simp only [checkLink, validateRank, bind_eq_ok_iff, rejectIf_eq_ok_iff,
    exists_const, Nat.not_le, ne_eq]

theorem Represented.addLink {link : TopologyLink} (represented : topology.Represented)
    (added : topology.addLink link = .ok after) : after.Represented := by
  obtain ⟨_, checked, added⟩ := of_bind added
  obtain ⟨inFirst, inSecond, apart, positive⟩ := checkLink_eq_ok_iff.mp checked
  cases added
  exact ⟨represented.someRank, represented.links.setBoth inFirst inSecond apart positive,
    represented.railLinks, represented.railCount, represented.lastRail,
    represented.aggregateLinks⟩

theorem Represented.addAggregateLink {link : TopologyAggregateLink}
    (represented : topology.Represented)
    (added : topology.addAggregateLink link = .ok after) :
    after.Represented := by
  obtain ⟨_, checked, added⟩ := of_bind added
  obtain ⟨inFirst, inSecond, apart, positive⟩ := checkLink_eq_ok_iff.mp checked
  cases added
  exact ⟨represented.someRank, represented.links, represented.railLinks,
    represented.railCount, represented.lastRail,
    represented.aggregateLinks.setBoth inFirst inSecond apart positive⟩

/-- The rails with one link set, as many of them as its rail needs. -/
def setRail (worldSize : Nat) (railLinks : List (List (List (Option LinkCost))))
    (rail row column : Nat) (cost : LinkCost) :
    List (List (List (Option LinkCost))) :=
  (railLinks ++ List.replicate (rail + 1 - railLinks.length)
    (emptyMatrix LinkCost worldSize)).modify rail fun links =>
      Rank.setBoth links row column cost

/-- `railLinks[rail][first][second]` -/
def railEntry (railLinks : List (List (List (Option LinkCost))))
    (rail first second : Nat) : Option LinkCost :=
  railLinks[rail]?.bind fun links => entryAt links first second

section Rails

variable {worldSize : Nat} {rails : List (List (List (Option LinkCost)))}
  {rail row column : Nat} {cost : LinkCost}

theorem length_setRail :
    (setRail worldSize rails rail row column cost).length = max rails.length (rail + 1) := by
  rw [setRail, List.length_modify, List.length_append, List.length_replicate]
  omega

theorem undirected_setRail (undirected : ∀ links ∈ rails, Undirected worldSize GoodCost links)
    (inRow : row < worldSize) (inColumn : column < worldSize)
    (apart : row ≠ column) (fine : GoodCost cost) :
    ∀ links ∈ setRail worldSize rails rail row column cost,
      Undirected worldSize GoodCost links := by
  have padded : ∀ links ∈ rails ++ List.replicate (rail + 1 - rails.length)
      (emptyMatrix LinkCost worldSize),
      Undirected worldSize GoodCost links := by
    intro links among
    rcases List.mem_append.mp among with old | new
    · exact undirected links old
    · obtain ⟨_, rfl⟩ := List.mem_replicate.mp new
      exact undirected_emptyMatrix
  intro links among
  obtain ⟨old, before, rfl | rfl⟩ := mem_modify among
  · exact padded links before
  · exact (padded old before).setBoth inRow inColumn apart fine

theorem railEntry_padded (first second other : Nat) :
    railEntry (rails ++ List.replicate (rail + 1 - rails.length)
        (emptyMatrix LinkCost worldSize)) other first second =
      railEntry rails other first second := by
  rw [railEntry, railEntry]
  rcases Nat.lt_or_ge other rails.length with old | new
  · rw [List.getElem?_append_left old]
  · rw [List.getElem?_append_right new, List.getElem?_eq_none new, List.getElem?_replicate]
    split
    case isTrue =>
      rw [Option.bind_some, entryAt_emptyMatrix]
      rfl
    case isFalse => rfl

theorem railEntry_setRail (undirected : ∀ links ∈ rails, Undirected worldSize GoodCost links)
    (inRow : row < worldSize) (inColumn : column < worldSize)
    (fine : GoodCost cost) (other first second : Nat) :
    railEntry (setRail worldSize rails rail row column cost) other first second =
      if other = rail ∧ Joins row column first second then some cost
      else railEntry rails other first second := by
  have padded := @railEntry_padded worldSize rails rail first second other
  rw [← padded]
  have squares : ∀ links ∈ rails ++ List.replicate (rail + 1 - rails.length)
        (emptyMatrix LinkCost worldSize),
      Square worldSize GoodCost links := by
    intro links among
    rcases List.mem_append.mp among with old | new
    · exact (undirected links old).square
    · obtain ⟨_, rfl⟩ := List.mem_replicate.mp new
      exact square_emptyMatrix
  have long : rail < (rails ++ List.replicate (rail + 1 - rails.length)
      (emptyMatrix LinkCost worldSize)).length := by
    rw [List.length_append, List.length_replicate]
    omega
  rw [railEntry, railEntry, setRail]
  generalize rails ++ List.replicate (rail + 1 - rails.length)
    (emptyMatrix LinkCost worldSize) = wide at squares long ⊢
  rw [List.getElem?_modify]
  by_cases same : rail = other
  · subst same
    simp only [List.getElem?_eq_getElem long, Option.map_eq_map,
      Option.map_some, Option.bind_some, if_true, true_and]
    exact (squares _ (List.getElem_mem long)).entryAt_setBoth inRow inColumn fine first second
  · rw [if_neg (fun here => same here.1.symm)]
    simp only [same, if_false, id_map']

end Rails

theorem Represented.addRailLink {link : TopologyRailLink} (represented : topology.Represented)
    (added : topology.addRailLink link = .ok after) :
    after.Represented := by
  obtain ⟨_, known, added⟩ := of_bind added
  obtain ⟨_, checked, added⟩ := of_bind added
  obtain ⟨inFirst, inSecond, apart, positive⟩ := checkLink_eq_ok_iff.mp checked
  cases added
  have fine : GoodCost ⟨link.bandwidthMbps, link.latencyNs⟩ := positive
  refine ⟨represented.someRank, represented.links,
    undirected_setRail represented.railLinks inFirst inSecond apart fine, ?_,
    ?_, represented.aggregateLinks⟩
  · refine length_setRail.trans_le (Nat.max_le.mpr ⟨represented.railCount, ?_⟩)
    exact ((validateP2pRails_eq_ok_iff ..).mp known).2
  intro links (last : (setRail topology.worldSize topology.railLinks
    link.rail link.firstRank link.secondRank
    ⟨link.bandwidthMbps, link.latencyNs⟩).getLast? = some links)
  have size := @length_setRail topology.worldSize topology.railLinks
    link.rail link.firstRank link.secondRank
    ⟨link.bandwidthMbps, link.latencyNs⟩
  have entries := @railEntry_setRail topology.worldSize topology.railLinks
    link.rail link.firstRank link.secondRank _ represented.railLinks inFirst
    inSecond fine
  have shown : ∀ first second,
      railEntry (setRail topology.worldSize topology.railLinks link.rail
        link.firstRank link.secondRank
        ⟨link.bandwidthMbps, link.latencyNs⟩)
        (max topology.railLinks.length (link.rail + 1) - 1) first second =
        entryAt links first second := by
    intro first second
    rw [List.getLast?_eq_getElem?, size] at last
    rw [railEntry, last, Option.bind_some]
  rcases Nat.lt_or_ge (link.rail + 1) topology.railLinks.length with
    older | newest
  · -- the last rail is one that was there before
    have count : max topology.railLinks.length (link.rail + 1) - 1 =
        topology.railLinks.length - 1 := by
      omega
    have present : topology.railLinks.length - 1 <
        topology.railLinks.length := by
      omega
    have old := List.getElem?_eq_getElem present
    obtain ⟨first, second, cost, found⟩ := represented.lastRail _
      (List.getLast?_eq_getElem?.trans old)
    refine ⟨first, second, cost, ?_⟩
    rw [← shown, count, entries, if_neg (by omega), railEntry, old,
      Option.bind_some]
    exact found
  · have count : max topology.railLinks.length (link.rail + 1) - 1 =
        link.rail := by
      omega
    refine ⟨link.firstRank, link.secondRank, ⟨link.bandwidthMbps, link.latencyNs⟩, ?_⟩
    rw [← shown, count, entries, if_pos ⟨rfl, Or.inl ⟨rfl, rfl⟩⟩]

/-- A call that adds a link. -/
inductive LinkCall where
  | plain (added : TopologyLink)
  | rail (added : TopologyRailLink)
  | aggregate (added : TopologyAggregateLink)

/-- What a call returns. -/
def LinkCall.attempt (topology : CollectiveTopology) :
    LinkCall → Except TopologyError CollectiveTopology
  | .plain added => topology.addLink added
  | .rail added => topology.addRailLink added
  | .aggregate added => topology.addAggregateLink added

/-- The topology behind a call; one that fails has changed nothing. -/
def afterCall (topology : CollectiveTopology) (call : LinkCall) :
    CollectiveTopology :=
  match call.attempt topology with
  | .ok after => after
  | .error _ => topology

theorem Represented.attempt {call : LinkCall} (represented : topology.Represented)
    (added : call.attempt topology = .ok after) : after.Represented := by
  cases call with
  | plain link => exact represented.addLink added
  | rail link => exact represented.addRailLink added
  | aggregate link => exact represented.addAggregateLink added

theorem Represented.afterCall (represented : topology.Represented)
    (call : LinkCall) : (topology.afterCall call).Represented := by
  unfold CollectiveTopology.afterCall
  split
  case h_1 after added => exact represented.attempt added
  case h_2 => exact represented

/-- The topologies that calls and texts lead to. -/
inductive Assembled : CollectiveTopology → Prop
  | empty {worldSize : Nat} {topology : CollectiveTopology}
      (made : empty worldSize = .ok topology) : Assembled topology
  | links {worldSize : Nat} {value : List Char} {topology : CollectiveTopology}
      (parsed : parseTopologyLinks worldSize value = .ok topology) :
      Assembled topology
  | call {before : CollectiveTopology} (call : LinkCall)
      (assembled : Assembled before) : Assembled (before.afterCall call)
  | railLinks {before after : CollectiveTopology} {value : List Char}
      {p2pRails : Nat} (assembled : Assembled before)
      (parsed : parseTopologyRailLinks before value p2pRails = .ok after) :
      Assembled after
  | aggregateLinks {before after : CollectiveTopology} {value : List Char}
      (assembled : Assembled before)
      (parsed : parseTopologyAggregateLinks before value = .ok after) :
      Assembled after

theorem Represented.foldlM {α : Type} {items : List α}
    {action : CollectiveTopology → α → Except TopologyError CollectiveTopology}
    (each : ∀ before item after, before.Represented →
      action before item = .ok after → after.Represented)
    (represented : topology.Represented)
    (ran : items.foldlM action topology = .ok after) :
    after.Represented := by
  induction items generalizing topology with
  | nil =>
      cases ran
      exact represented
  | cons item rest ih =>
      rw [List.foldlM_cons] at ran
      obtain ⟨between, first, later⟩ := of_bind ran
      exact ih (each _ _ _ represented first) later

theorem represented_uniform {worldSize : Nat}
    (made : uniform worldSize = .ok topology) : topology.Represented := by
  obtain ⟨_, _, made⟩ := of_bind made
  obtain ⟨start, begun, made⟩ := of_bind made
  refine (represented_empty begun).foldlM ?_ made
  intro before first after represented ran
  refine represented.foldlM ?_ ran
  intro between second later kept added
  exact kept.addLink added

theorem represented_parseTopologyLinks {worldSize : Nat} {value : List Char}
    (parsed : parseTopologyLinks worldSize value = .ok topology) :
    topology.Represented := by
  obtain ⟨start, begun, parsed⟩ := of_bind parsed
  refine (represented_empty begun).foldlM ?_ parsed
  intro before encoded after represented ran
  obtain ⟨link, _, added⟩ := of_bind ran
  exact represented.addLink added

theorem Represented.parseTopologyRailLinks {value : List Char}
    {p2pRails : Nat} (represented : topology.Represented)
    (parsed : parseTopologyRailLinks topology value p2pRails = .ok after) :
    after.Represented := by
  refine represented.foldlM ?_ parsed
  intro before encoded after represented ran
  obtain ⟨link, _, added⟩ := of_bind ran
  exact represented.addRailLink added

theorem Represented.parseTopologyAggregateLinks {value : List Char}
    (represented : topology.Represented)
    (parsed : parseTopologyAggregateLinks topology value = .ok after) :
    after.Represented := by
  refine represented.foldlM ?_ parsed
  intro before encoded after represented ran
  obtain ⟨link, _, added⟩ := of_bind ran
  exact represented.addAggregateLink added

theorem Assembled.represented (assembled : Assembled topology) :
    topology.Represented := by
  induction assembled with
  | empty made => exact represented_empty made
  | links parsed => exact represented_parseTopologyLinks parsed
  | call call _ ih => exact ih.afterCall call
  | railLinks _ parsed ih => exact ih.parseTopologyRailLinks parsed
  | aggregateLinks _ parsed ih => exact ih.parseTopologyAggregateLinks parsed

/-- The same of the topologies that are built by calls that succeed. -/
theorem Built.represented (built : Built topology) :
    topology.Represented := by
  induction built with
  | empty made => exact represented_empty made
  | uniform made => exact represented_uniform made
  | addLink link _ added ih => exact ih.addLink added
  | addRailLink link _ added ih => exact ih.addRailLink added
  | addAggregateLink link _ added ih => exact ih.addAggregateLink added

end CollectiveTopology

end RuCCL.Rank

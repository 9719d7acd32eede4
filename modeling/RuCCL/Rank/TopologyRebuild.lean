import RuCCL.Rank.TopologyMatrices

/-!
# Rebuilding a topology from its links

A topology lists its links above the diagonal, rail by rail.  Adding them again to an
empty topology of the same world gives the same matrices, with as many rails.
-/

namespace RuCCL.Rank

open RuCCL.Library

namespace CollectiveTopology

/-- The entries above the diagonal, row by row. -/
def upperEntries {α : Type} (size : Nat) (matrix : List (List (Option α))) :
    List (Nat × Nat × α) :=
  (List.range size).flatMap fun first =>
    (ranksBehind size first).filterMap fun second =>
      (entryAt matrix first second).map fun value => (first, second, value)

variable (topology : CollectiveTopology)

/-- `links()` -/
def linkList : List TopologyLink :=
  (upperEntries topology.worldSize topology.links).map fun entry =>
    ⟨entry.1, entry.2.1, entry.2.2.bandwidthMbps, entry.2.2.latencyNs⟩

/-- `rail_links()` -/
def railLinkList : List TopologyRailLink := topology.railLinks.zipIdx.flatMap fun (links, rail) =>
    (upperEntries topology.worldSize links).map fun entry =>
      ⟨rail, entry.1, entry.2.1, entry.2.2.bandwidthMbps, entry.2.2.latencyNs⟩

/-- `aggregate_links()` -/
def aggregateLinkList : List TopologyAggregateLink :=
  (upperEntries topology.worldSize topology.aggregateLinks).map fun entry =>
    ⟨entry.1, entry.2.1, entry.2.2⟩

/-- Add all listed links to an empty topology of the same world. -/
def rebuilt : Except TopologyError CollectiveTopology := do
  let start ← empty topology.worldSize
  let linked ← topology.linkList.foldlM addLink start
  let railed ← topology.railLinkList.foldlM addRailLink linked
  topology.aggregateLinkList.foldlM addAggregateLink railed

theorem mem_ranksBehind {worldSize first second : Nat} :
    second ∈ ranksBehind worldSize first ↔
      first < second ∧ second < worldSize := by
  rw [ranksBehind, List.mem_range'_1]
  omega

theorem mem_upperEntries {α : Type} {size : Nat}
    {matrix : List (List (Option α))} {entry : Nat × Nat × α} :
    entry ∈ upperEntries size matrix ↔ entry.1 < entry.2.1 ∧ entry.2.1 < size ∧
        entryAt matrix entry.1 entry.2.1 = some entry.2.2 := by
  obtain ⟨first, second, value⟩ := entry
  simp only [upperEntries, List.mem_flatMap, List.mem_range,
    List.mem_filterMap, mem_ranksBehind, Option.map_eq_some_iff,
    Prod.mk.injEq]
  constructor
  · rintro ⟨_, _, _, ⟨below, inside⟩, _, found, rfl, rfl, rfl⟩
    exact ⟨below, inside, found⟩
  · rintro ⟨below, inside, found⟩
    exact ⟨first, Nat.lt_trans below inside, second, ⟨below, inside⟩, value, found, rfl, rfl, rfl⟩

section Matrix

variable {α : Type} {size : Nat} {good : α → Prop} {matrix : List (List (Option α))}

/-- An entry that can be added. -/
def EntryFits (size : Nat) (good : α → Prop) (entry : Nat × Nat × α) :
    Prop :=
  entry.1 < size ∧ entry.2.1 < size ∧ entry.1 ≠ entry.2.1 ∧ good entry.2.2

/-- Write one entry in both directions. -/
def writeEntry (matrix : List (List (Option α)))
    (entry : Nat × Nat × α) : List (List (Option α)) :=
  Rank.setBoth matrix entry.1 entry.2.1 entry.2.2

theorem Undirected.upperFits (undirected : Undirected size good matrix)
    {entry : Nat × Nat × α} (listed : entry ∈ upperEntries size matrix) :
    EntryFits size good entry := by
  obtain ⟨below, inside, found⟩ := mem_upperEntries.mp listed
  exact ⟨Nat.lt_trans below inside, inside, Nat.ne_of_lt below,
    undirected.square.entry_good found⟩

theorem Undirected.writeEntry {entry : Nat × Nat × α} (undirected : Undirected size good matrix)
    (fits : EntryFits size good entry) :
    Undirected size good (writeEntry matrix entry) :=
  undirected.setBoth fits.1 fits.2.1 fits.2.2.1 fits.2.2.2

/-- An entry above the diagonal joins only its own ranks. -/
theorem joins_upper {row column first second : Nat} (above : row < column)
    (below : first < second) :
    Joins row column first second ↔ row = first ∧ column = second := by
  unfold Joins
  omega

/-- Writing the entries above the diagonal gives the matrix back. -/
theorem Undirected.foldl_upperEntries (undirected : Undirected size good matrix) :
    (upperEntries size matrix).foldl CollectiveTopology.writeEntry
      (emptyMatrix α size) = matrix := by
  have fitting : ∀ entry ∈ upperEntries size matrix,
      EntryFits size good entry := fun entry listed =>
    undirected.upperFits listed
  have keeps : ∀ (state : List (List (Option α))) (entry : Nat × Nat × α),
      Undirected size good state → EntryFits size good entry →
        Undirected size good (CollectiveTopology.writeEntry state entry) :=
    fun _ _ kept fits => kept.writeEntry fits
  refine (kept_foldl keeps fitting undirected_emptyMatrix).ext undirected ?_
  intro first second below inside
  have writes : ∀ (state : List (List (Option α)))
      (entry : Nat × Nat × α) (key : Nat × Nat), Undirected size good state →
      EntryFits size good entry →
        entryAt (CollectiveTopology.writeEntry state entry) key.1 key.2 =
          if Joins entry.1 entry.2.1 key.1 key.2 then some entry.2.2
          else entryAt state key.1 key.2 := fun state entry key kept fits =>
    kept.square.entryAt_setBoth fits.1 fits.2.1 fits.2.2.2 key.1 key.2
  have hit : ∀ entry ∈ upperEntries size matrix, Joins entry.1 entry.2.1 first second →
        some entry.2.2 = entryAt matrix first second := by
    intro entry listed joins
    obtain ⟨above, _, found⟩ := mem_upperEntries.mp listed
    obtain ⟨rfl, rfl⟩ := (joins_upper above below).mp joins
    exact found.symm
  have observed := @observe_foldl _ _ (Nat × Nat) _
    CollectiveTopology.writeEntry (fun state key => entryAt state key.1 key.2)
    (fun entry key => Joins entry.1 entry.2.1 key.1 key.2) _
    (fun entry => entry.2.2) _ _ keeps writes _ fitting _
    undirected_emptyMatrix (first, second) _ hit
  refine observed.trans ?_
  split
  case isTrue => rfl
  case isFalse missed =>
    cases found : entryAt matrix first second with
    | none => exact entryAt_emptyMatrix size first second
    | some value =>
        refine absurd ⟨(first, second, value), ?_, ?_⟩ missed
        · exact mem_upperEntries.mpr ⟨below, inside, found⟩
        · exact Or.inl ⟨rfl, rfl⟩

end Matrix

section Rails

/-- A rail with an entry of its matrix. -/
abbrev RailEntry := Nat × Nat × Nat × LinkCost

/-- Write one entry on its rail. -/
def writeRail (worldSize : Nat)
    (rails : List (List (List (Option LinkCost)))) (entry : RailEntry) :
    List (List (List (Option LinkCost))) :=
  setRail worldSize rails entry.1 entry.2.1 entry.2.2.1 entry.2.2.2

/-- The entries of all rails. -/
def railEntries (worldSize : Nat)
    (rails : List (List (List (Option LinkCost)))) : List RailEntry :=
  rails.zipIdx.flatMap fun (links, rail) =>
    (upperEntries worldSize links).map fun entry => (rail, entry)

variable {worldSize : Nat} {rails : List (List (List (Option LinkCost)))}

theorem mem_railEntries {entry : RailEntry} :
    entry ∈ railEntries worldSize rails ↔ ∃ links, rails[entry.1]? = some links ∧
        entry.2 ∈ upperEntries worldSize links := by
  obtain ⟨rail, inner⟩ := entry
  simp only [railEntries, List.mem_flatMap, List.mem_map, Prod.mk.injEq,
    Prod.exists, List.mem_zipIdx_iff_getElem?]
  constructor
  · rintro ⟨links, _, located, first, second, cost, listed, rfl, rfl⟩
    exact ⟨links, located, listed⟩
  · rintro ⟨links, located, listed⟩
    exact ⟨links, rail, located, inner.1, inner.2.1, inner.2.2, listed, rfl,
      rfl⟩

theorem length_foldl_writeRail_le {limit : Nat} {entries : List RailEntry}
    (within : ∀ entry ∈ entries, entry.1 < limit)
    {start : List (List (List (Option LinkCost)))}
    (begun : start.length ≤ limit) :
    (entries.foldl (writeRail worldSize) start).length ≤ limit := by
  have keeps : ∀ (state : List (List (List (Option LinkCost))))
      (entry : RailEntry), state.length ≤ limit → entry.1 < limit →
      (writeRail worldSize state entry).length ≤ limit := by
    intro state entry short inside
    rw [writeRail, length_setRail]
    omega
  exact kept_foldl keeps within begun

theorem length_le_foldl_writeRail (entries : List RailEntry)
    (start : List (List (List (Option LinkCost)))) :
    start.length ≤ (entries.foldl (writeRail worldSize) start).length := by
  induction entries generalizing start with
  | nil => exact Nat.le_refl _
  | cons entry rest ih =>
      rw [List.foldl_cons]
      refine Nat.le_trans ?_ (ih _)
      rw [writeRail, length_setRail]
      exact Nat.le_max_left _ _

theorem rail_lt_length_foldl_writeRail {entries : List RailEntry}
    {entry : RailEntry} (among : entry ∈ entries)
    (start : List (List (List (Option LinkCost)))) :
    entry.1 < (entries.foldl (writeRail worldSize) start).length := by
  induction entries generalizing start with
  | nil => cases among
  | cons first rest ih =>
      rw [List.foldl_cons]
      rcases List.mem_cons.mp among with rfl | later
      · refine Nat.lt_of_lt_of_le ?_ (length_le_foldl_writeRail rest _)
        rw [writeRail, length_setRail]
        omega
      · exact ih later _

/-- All rails are undirected. -/
abbrev AllUndirected (worldSize : Nat) (rails : List (List (List (Option LinkCost)))) : Prop :=
  ∀ links ∈ rails, Undirected worldSize GoodCost links

theorem allUndirected_nil : AllUndirected worldSize [] := by
  intro links among
  cases among

theorem AllUndirected.writeRail {state : List (List (List (Option LinkCost)))} {entry : RailEntry}
    (undirected : AllUndirected worldSize state)
    (fits : EntryFits worldSize GoodCost entry.2) :
    AllUndirected worldSize (writeRail worldSize state entry) :=
  undirected_setRail undirected fits.1 fits.2.1 fits.2.2.1 fits.2.2.2

theorem AllUndirected.entriesFit (undirected : AllUndirected worldSize rails)
    {entry : RailEntry} (listed : entry ∈ railEntries worldSize rails) :
    EntryFits worldSize GoodCost entry.2 := by
  obtain ⟨links, located, upper⟩ := mem_railEntries.mp listed
  exact (undirected links (List.mem_of_getElem? located)).upperFits upper

/-- A matrix with a link has one above the diagonal. -/
theorem Undirected.exists_upper {links : List (List (Option LinkCost))}
    (undirected : Undirected worldSize GoodCost links) {first second : Nat}
    {cost : LinkCost} (found : entryAt links first second = some cost) :
    ∃ entry, entry ∈ upperEntries worldSize links := by
  obtain ⟨inFirst, inSecond⟩ := undirected.square.entry_inside found
  rcases Nat.lt_trichotomy first second with below | same | above
  · exact ⟨(first, second, cost), mem_upperEntries.mpr ⟨below, inSecond, found⟩⟩
  · rw [same, undirected.loopless] at found
    cases found
  · rw [undirected.symmetric] at found
    exact ⟨(second, first, cost), mem_upperEntries.mpr ⟨above, inFirst, found⟩⟩

/-- There are as many rails as before, since the last one has a link. -/
theorem length_foldl_railEntries (undirected : AllUndirected worldSize rails)
    (lastRail : ∀ links, rails.getLast? = some links →
      ∃ first second cost, entryAt links first second = some cost) :
    ((railEntries worldSize rails).foldl (writeRail worldSize) []).length =
      rails.length := by
  refine Nat.le_antisymm (length_foldl_writeRail_le ?_ (Nat.zero_le _)) ?_
  · intro entry listed
    obtain ⟨links, located, _⟩ := mem_railEntries.mp listed
    exact (List.getElem?_eq_some_iff.mp located).1
  · cases last : rails.getLast? with
    | none =>
        rw [List.getLast?_eq_none_iff.mp last]
        exact Nat.zero_le _
    | some links =>
        obtain ⟨first, second, cost, found⟩ := lastRail links last
        obtain ⟨entry, listed⟩ := (undirected links
          (List.mem_of_getLast? last)).exists_upper found
        rw [List.getLast?_eq_getElem?] at last
        have reached := @rail_lt_length_foldl_writeRail worldSize _ (rails.length - 1, entry)
          (mem_railEntries.mpr ⟨links, last, listed⟩) []
        dsimp only at reached
        omega

theorem railEntry_foldl_railEntries (undirected : AllUndirected worldSize rails) (rail : Nat)
    {first second : Nat} (below : first < second)
    (inside : second < worldSize) :
    railEntry ((railEntries worldSize rails).foldl (writeRail worldSize) [])
        rail first second = railEntry rails rail first second := by
  have keeps : ∀ (state : List (List (List (Option LinkCost))))
      (entry : RailEntry), AllUndirected worldSize state →
      EntryFits worldSize GoodCost entry.2 →
      AllUndirected worldSize (writeRail worldSize state entry) :=
    fun _ _ kept fits => kept.writeRail fits
  have writes : ∀ (state : List (List (List (Option LinkCost))))
      (entry : RailEntry) (key : Nat × Nat × Nat),
      AllUndirected worldSize state →
      EntryFits worldSize GoodCost entry.2 →
      railEntry (writeRail worldSize state entry) key.1 key.2.1 key.2.2 =
        if key.1 = entry.1 ∧ Joins entry.2.1 entry.2.2.1 key.2.1 key.2.2 then
          some entry.2.2.2
        else railEntry state key.1 key.2.1 key.2.2 :=
    fun state entry key kept fits =>
      railEntry_setRail kept fits.1 fits.2.1 fits.2.2.2 key.1 key.2.1 key.2.2
  have hit : ∀ entry ∈ railEntries worldSize rails,
      rail = entry.1 ∧ Joins entry.2.1 entry.2.2.1 first second →
        some entry.2.2.2 = railEntry rails rail first second := by
    rintro entry listed ⟨rfl, joins⟩
    obtain ⟨links, located, upper⟩ := mem_railEntries.mp listed
    obtain ⟨above, _, found⟩ := mem_upperEntries.mp upper
    obtain ⟨rfl, rfl⟩ := (joins_upper above below).mp joins
    rw [railEntry, located, Option.bind_some]
    exact found.symm
  have observed := @observe_foldl _ _ (Nat × Nat × Nat) _ (writeRail worldSize)
    (fun state key => railEntry state key.1 key.2.1 key.2.2)
    (fun entry key => key.1 = entry.1 ∧ Joins entry.2.1 entry.2.2.1 key.2.1 key.2.2) _
    (fun entry => entry.2.2.2) _ _ keeps writes _
    (fun entry listed => undirected.entriesFit listed) _ allUndirected_nil
    (rail, first, second) _ hit
  refine observed.trans ?_
  split
  case isTrue => rfl
  case isFalse missed =>
    cases found : railEntry rails rail first second with
    | none => rfl
    | some value =>
        obtain ⟨links, located, entry⟩ := Option.bind_eq_some_iff.mp found
        refine absurd ⟨(rail, first, second, value), ?_, ?_⟩ missed
        · exact mem_railEntries.mpr ⟨links, located, mem_upperEntries.mpr ⟨below, inside, entry⟩⟩
        · exact ⟨rfl, Or.inl ⟨rfl, rfl⟩⟩

/-- Writing the entries of all rails gives the rails back. -/
theorem foldl_railEntries (undirected : AllUndirected worldSize rails)
    (lastRail : ∀ links, rails.getLast? = some links →
      ∃ first second cost, entryAt links first second = some cost) :
    (railEntries worldSize rails).foldl (writeRail worldSize) [] =
      rails := by
  have keeps : ∀ (state : List (List (List (Option LinkCost))))
      (entry : RailEntry), AllUndirected worldSize state →
      EntryFits worldSize GoodCost entry.2 →
      AllUndirected worldSize (writeRail worldSize state entry) :=
    fun _ _ kept fits => kept.writeRail fits
  have kept := kept_foldl keeps
    (fun entry listed => undirected.entriesFit listed) allUndirected_nil
  have length := length_foldl_railEntries undirected lastRail
  refine List.ext_getElem? fun rail => ?_
  rcases Nat.lt_or_ge rail rails.length with present | absent
  · have built : rail < ((railEntries worldSize rails).foldl
        (writeRail worldSize) []).length := by
      rw [length]
      exact present
    have left := List.getElem?_eq_getElem built
    have right := List.getElem?_eq_getElem present
    rw [left, right]
    refine congrArg some ((kept _ (List.getElem_mem built)).ext
      (undirected _ (List.getElem_mem present)) ?_)
    intro first second below inside
    have same := railEntry_foldl_railEntries undirected rail below inside
    rw [railEntry, railEntry, left, right] at same
    exact same
  · rw [List.getElem?_eq_none absent, List.getElem?_eq_none]
    rw [length]
    exact absent

end Rails

section Adding

variable {start topology : CollectiveTopology}

theorem foldlM_addLink {entries : List (Nat × Nat × LinkCost)}
    (fits : ∀ entry ∈ entries, EntryFits start.worldSize GoodCost entry) :
    (entries.map fun entry =>
      (⟨entry.1, entry.2.1, entry.2.2.bandwidthMbps,
        entry.2.2.latencyNs⟩ : TopologyLink)).foldlM addLink start =
      .ok { start with links := entries.foldl writeEntry start.links } := by
  induction entries generalizing start with
  | nil => rfl
  | cons entry rest ih =>
      have fine := fits entry List.mem_cons_self
      have added : start.addLink ⟨entry.1, entry.2.1,
          entry.2.2.bandwidthMbps, entry.2.2.latencyNs⟩ =
          .ok { start with links := writeEntry start.links entry } :=
        (bind_eq_ok_iff ..).mpr ⟨(), checkLink_eq_ok_iff.mpr fine, rfl⟩
      rw [List.map_cons, List.foldlM_cons, added, ok_bind]
      exact ih fun other among =>
        fits other (List.mem_cons_of_mem _ among)

theorem foldlM_addAggregateLink {entries : List (Nat × Nat × Nat)}
    (fits : ∀ entry ∈ entries, EntryFits start.worldSize (· ≠ 0) entry) :
    (entries.map fun entry =>
      (⟨entry.1, entry.2.1, entry.2.2⟩ : TopologyAggregateLink)).foldlM addAggregateLink start =
      .ok { start with
        aggregateLinks := entries.foldl writeEntry start.aggregateLinks } := by
  induction entries generalizing start with
  | nil => rfl
  | cons entry rest ih =>
      have fine := fits entry List.mem_cons_self
      have added : start.addAggregateLink ⟨entry.1, entry.2.1, entry.2.2⟩ =
          .ok { start with
            aggregateLinks := writeEntry start.aggregateLinks entry } :=
        (bind_eq_ok_iff ..).mpr ⟨(), checkLink_eq_ok_iff.mpr fine, rfl⟩
      rw [List.map_cons, List.foldlM_cons, added, ok_bind]
      exact ih fun other among =>
        fits other (List.mem_cons_of_mem _ among)

theorem foldlM_addRailLink {entries : List RailEntry}
    (fits : ∀ entry ∈ entries, entry.1 < maxP2pRails ∧
      EntryFits start.worldSize GoodCost entry.2) :
    (entries.map fun entry =>
      (⟨entry.1, entry.2.1, entry.2.2.1, entry.2.2.2.bandwidthMbps,
        entry.2.2.2.latencyNs⟩ : TopologyRailLink)).foldlM addRailLink start =
      .ok { start with
        railLinks := entries.foldl (writeRail start.worldSize) start.railLinks } := by
  induction entries generalizing start with
  | nil => rfl
  | cons entry rest ih =>
      obtain ⟨known, fine⟩ := fits entry List.mem_cons_self
      have added : start.addRailLink ⟨entry.1, entry.2.1, entry.2.2.1,
          entry.2.2.2.bandwidthMbps, entry.2.2.2.latencyNs⟩ =
          .ok { start with
            railLinks := writeRail start.worldSize start.railLinks entry } :=
        (bind_eq_ok_iff ..).mpr ⟨(), (validateP2pRails_eq_ok_iff ..).mpr ⟨Nat.succ_pos _, known⟩,
          (bind_eq_ok_iff ..).mpr ⟨(), checkLink_eq_ok_iff.mpr fine, rfl⟩⟩
      rw [List.map_cons, List.foldlM_cons, added, ok_bind]
      exact ih fun other among =>
        fits other (List.mem_cons_of_mem _ among)

theorem railLinkList_eq (topology : CollectiveTopology) :
    topology.railLinkList = (railEntries topology.worldSize topology.railLinks).map fun entry =>
        ⟨entry.1, entry.2.1, entry.2.2.1, entry.2.2.2.bandwidthMbps, entry.2.2.2.latencyNs⟩ := by
  rw [railLinkList, railEntries, List.map_flatMap]
  refine congrArg (topology.railLinks.zipIdx.flatMap ·) (funext fun pair => ?_)
  rw [List.map_map]
  rfl

/-- The listed links of a topology rebuild it. -/
theorem Represented.rebuilt_eq (represented : topology.Represented) :
    topology.rebuilt = .ok topology := by
  have begun : empty topology.worldSize = .ok
      { worldSize := topology.worldSize
        links := emptyMatrix LinkCost topology.worldSize
        railLinks := []
        aggregateLinks := emptyMatrix Nat topology.worldSize } :=
    (bind_eq_ok_iff ..).mpr ⟨(), if_neg represented.someRank, rfl⟩
  have railsFit : ∀ entry ∈ railEntries topology.worldSize topology.railLinks,
      entry.1 < maxP2pRails ∧
        EntryFits topology.worldSize GoodCost entry.2 := by
    intro entry listed
    obtain ⟨links, located, _⟩ := mem_railEntries.mp listed
    have inside := (List.getElem?_eq_some_iff.mp located).1
    exact ⟨inside.trans_le represented.railCount,
      AllUndirected.entriesFit represented.railLinks listed⟩
  rw [rebuilt, begun, ok_bind, linkList, foldlM_addLink, ok_bind,
    railLinkList_eq, foldlM_addRailLink, ok_bind, aggregateLinkList,
    foldlM_addAggregateLink]
  · rw [represented.links.foldl_upperEntries,
      foldl_railEntries represented.railLinks represented.lastRail,
      represented.aggregateLinks.foldl_upperEntries]
  · exact fun entry listed => represented.aggregateLinks.upperFits listed
  · exact railsFit
  · exact fun entry listed => represented.links.upperFits listed

end Adding

section Times

/-- `matrix[first][second]`, nothing when an index is outside. -/
def readEntry {α : Type} (matrix : List (List (Option α)))
    (first second : Nat) : Option (Option α) := do
  let row ← matrix[first]?
  row[second]?

/-- A division by the bandwidth, nothing when it is zero. -/
def timeOver {α : Type} (bandwidth : α → Nat) (time : α → Nat) :
    Option α → Option (Option Nat)
  | none => some none
  | some link => if bandwidth link = 0 then none else some (some (time link))

/-- The transfer time of the link between two ranks, on a rail when there is one;
nothing where the code would index outside of a matrix or divide by zero. -/
def linkTimeOrCrash (topology : CollectiveTopology)
    (first second bytes : Nat) (rail : Option Nat) : Option (Option Nat) := do
  let railCost ←
    match rail.bind fun rail => topology.railLinks[rail]? with
    | some links => readEntry links first second
    | none => some none
  let cost ←
    match railCost with
    | some cost => some (some cost)
    | none => readEntry topology.links first second
  timeOver LinkCost.bandwidthMbps (linkTransferTimeNs · bytes) cost

/-- The same over all rails together. -/
def aggregateTimeOrCrash (topology : CollectiveTopology)
    (first second bytes : Nat) : Option (Option Nat) := do
  let bandwidth ← readEntry topology.aggregateLinks first second
  timeOver id (transferTimeNs bytes) bandwidth

variable {α : Type} {size : Nat} {good : α → Prop} {matrix : List (List (Option α))}

theorem Square.readEntry_eq (square : Square size good matrix)
    {first second : Nat} (inFirst : first < size)
    (inSecond : second < size) :
    readEntry matrix first second = some (entryAt matrix first second) := by
  obtain ⟨row, located, entry⟩ := square.exists_entry inFirst inSecond
  rw [readEntry, located]
  exact entry

theorem timeOver_eq {bandwidth time : α → Nat} {link : Option α}
    (positive : ∀ value, link = some value → bandwidth value ≠ 0) :
    timeOver bandwidth time link = some (link.map time) := by
  cases link with
  | none => rfl
  | some value => exact if_neg (positive value rfl)

variable {topology : CollectiveTopology}

theorem Represented.linkOnRail_good (represented : topology.Represented)
    {first second rail : Nat} {cost : LinkCost}
    (found : topology.linkOnRail first second rail = some cost) :
    cost.bandwidthMbps ≠ 0 := by
  rw [linkOnRail] at found
  split at found
  case h_1 railed =>
    cases found
    obtain ⟨links, located, entry⟩ := Option.bind_eq_some_iff.mp railed
    exact (represented.railLinks links (List.mem_of_getElem? located)).square.entry_good entry
  case h_2 => exact represented.links.square.entry_good found

theorem Represented.linkTimeOrCrash_eq (represented : topology.Represented)
    {first second : Nat} (inFirst : first < topology.worldSize)
    (inSecond : second < topology.worldSize) (bytes : Nat)
    (rail : Option Nat) :
    topology.linkTimeOrCrash first second bytes rail =
      some ((match rail with
        | some rail => topology.linkOnRail first second rail
        | none => topology.link first second).map (linkTransferTimeNs · bytes)) := by
  have plain := represented.links.square.readEntry_eq inFirst inSecond
  have straight : timeOver LinkCost.bandwidthMbps (linkTransferTimeNs · bytes)
      (topology.link first second) =
      some ((topology.link first second).map (linkTransferTimeNs · bytes)) :=
    timeOver_eq fun cost found =>
      represented.links.square.entry_good found
  rw [linkTimeOrCrash]
  cases rail with
  | none =>
      rw [Option.bind_none]
      dsimp only
      rw [Option.bind_eq_bind, Option.bind_some, plain]
      exact straight
  | some rail =>
      rw [Option.bind_some]
      have good := fun cost =>
        @Represented.linkOnRail_good topology represented first second rail cost
      cases located : topology.railLinks[rail]? with
      | none =>
          have missing : topology.linkOnRail first second rail =
              topology.link first second := by
            rw [linkOnRail, located]
            rfl
          dsimp only
          rw [missing, Option.bind_eq_bind, Option.bind_some, plain]
          exact straight
      | some links =>
          have railed := (represented.railLinks links
            (List.mem_of_getElem? located)).square.readEntry_eq inFirst inSecond
          dsimp only
          rw [railed, Option.bind_eq_bind, Option.bind_some]
          cases entry : entryAt links first second with
          | none =>
              have missing : topology.linkOnRail first second rail =
                  topology.link first second := by
                rw [linkOnRail, located, Option.bind_some, entry]
              rw [missing, plain]
              exact straight
          | some cost =>
              have shown : topology.linkOnRail first second rail =
                  some cost := by
                rw [linkOnRail, located, Option.bind_some, entry]
              rw [shown] at good ⊢
              show timeOver LinkCost.bandwidthMbps (linkTransferTimeNs · bytes) (some cost) = _
              exact timeOver_eq good

theorem Represented.aggregateTimeOrCrash_eq
    (represented : topology.Represented) {first second : Nat}
    (inFirst : first < topology.worldSize)
    (inSecond : second < topology.worldSize) (bytes : Nat) :
    topology.aggregateTimeOrCrash first second bytes =
      some ((topology.aggregateBandwidthMbps first second).map (transferTimeNs bytes)) := by
  rw [aggregateTimeOrCrash, represented.aggregateLinks.square.readEntry_eq
    inFirst inSecond, Option.bind_eq_bind, Option.bind_some]
  exact timeOver_eq fun bandwidth found =>
    represented.aggregateLinks.square.entry_good found

end Times

/-- Whatever calls and texts a topology has come from, its links are undirected, no
time between two of its ranks crashes, and its listed links rebuild it. -/
theorem assembled_topology_represented (topology : CollectiveTopology)
    (assembled : Assembled topology) :
    topology.Represented ∧
      (∀ first second, first < topology.worldSize → second < topology.worldSize → ∀ bytes,
        (∀ rail, topology.linkTimeOrCrash first second bytes rail =
          some ((match rail with
            | some rail => topology.linkOnRail first second rail
            | none => topology.link first second).map (linkTransferTimeNs · bytes))) ∧
        topology.aggregateTimeOrCrash first second bytes =
          some ((topology.aggregateBandwidthMbps first second).map (transferTimeNs bytes))) ∧
      topology.rebuilt = .ok topology := by
  have represented := assembled.represented
  refine ⟨represented, ?_, represented.rebuilt_eq⟩
  intro first second inFirst inSecond bytes
  exact ⟨represented.linkTimeOrCrash_eq inFirst inSecond bytes,
    represented.aggregateTimeOrCrash_eq inFirst inSecond bytes⟩

theorem Assembled.calls {topology : CollectiveTopology}
    (assembled : Assembled topology) (calls : List LinkCall) :
    Assembled (calls.foldl afterCall topology) := by
  induction calls generalizing topology with
  | nil => exact assembled
  | cons call rest ih => exact ih (assembled.call call)

/-- Three ranks with a link on rail 1 behind a call that fails. -/
def railedThree : CollectiveTopology :=
  [LinkCall.plain ⟨0, 3, 10, 5⟩, .plain ⟨2, 0, 10, 5⟩,
    .rail ⟨1, 1, 2, 40, 3⟩, .aggregate ⟨0, 1, 50⟩].foldl afterCall
      { worldSize := 3
        links := emptyMatrix LinkCost 3
        railLinks := []
        aggregateLinks := emptyMatrix Nat 3 }

theorem assembled_railedThree : Assembled railedThree :=
  Assembled.calls (@Assembled.empty 3 _ rfl) _

theorem assembled_topology_represented_three :
    railedThree.railLinks.length = 2 ∧
      railedThree.linkTimeOrCrash 2 1 1000 (some 1) = some (some 25003) ∧
      railedThree.rebuilt = .ok railedThree := by
  have represented := assembled_topology_represented railedThree assembled_railedThree
  have timed := (represented.2.1 2 1 (by decide) (by decide) 1000).1 (some 1)
  refine ⟨by decide, timed.trans ?_, represented.2.2⟩
  decide

end CollectiveTopology

end RuCCL.Rank

import RuCCL.Library.PrefixFree
import RuCCL.Rank.PlanExecutable
import RuCCL.Rank.TopologyMatrices

/-!
# What a fingerprint covers

A tuning is fed to the hash of its fingerprint as a sequence of words.  Lists stand
behind their lengths and optional sections behind markers, so the words determine
all that they are made from.
-/

namespace RuCCL.Rank

open RuCCL.Library

namespace CollectiveTopology

variable {topology : CollectiveTopology}

theorem length_selectRings_le {maximum : Nat} {usage : EdgeUsage}
    {candidates selected : List (List Nat)}
    (ran : topology.selectRings maximum usage candidates = .ok selected) :
    selected.length ≤ maximum := by
  induction maximum generalizing usage candidates selected with
  | zero =>
      cases ran
      exact Nat.le_refl _
  | succ maximum ih =>
      obtain ⟨keys, _, ran⟩ := of_bind ran
      split at ran
      case h_1 =>
        cases ran
        exact Nat.zero_le _
      case h_2 key order index best =>
        obtain ⟨rest, later, same⟩ := of_bind ran
        cases same
        exact Nat.succ_le_succ (ih later)

theorem length_bestRingOrders_le {maximum : Nat}
    {orders : List (List Nat)} (positive : 0 < maximum)
    (found : topology.bestRingOrders maximum = .ok orders) :
    orders.length ≤ maximum := by
  rw [bestRingOrders, if_neg (Nat.ne_of_gt positive)] at found
  split at found
  · cases found
    exact positive
  · split at found <;>
    · obtain ⟨_, _, ran⟩ := of_bind found
      exact length_selectRings_le ran

end CollectiveTopology

theorem length_foldl_addRing_le (primary : List Nat) (candidates orders : List (List Nat)) :
    (candidates.foldl (addRing primary) orders).length ≤ orders.length + candidates.length := by
  induction candidates generalizing orders with
  | nil => exact Nat.le_refl _
  | cons candidate rest ih =>
      have added : (addRing primary orders candidate).length ≤ orders.length + 1 := by
        rw [addRing]
        split
        · rw [List.length_append, List.length_singleton]
        · exact Nat.le_succ _
      have later := ih (addRing primary orders candidate)
      rw [List.foldl_cons, List.length_cons]
      omega

theorem length_ringOrdersWithPrimary_le (topology : CollectiveTopology) (primary : List Nat) :
    (ringOrdersWithPrimary topology primary).length ≤ maxRingChannels + 1 := by
  rw [ringOrdersWithPrimary]
  split
  case h_1 =>
    rw [List.length_singleton]
    decide
  case h_2 candidates found =>
    have few := CollectiveTopology.length_bestRingOrders_le (by decide) found
    have added := length_foldl_addRing_le primary candidates [primary]
    rw [List.length_singleton] at added
    omega

/-- What a tuning keeps from its constructor. -/
structure TuningOrigin (tuning : CollectiveTuning) : Prop where
  represented : tuning.topology.Represented
  fewRings : tuning.ringOrders.length ≤ maxRingChannels + 1

namespace ConfiguredTuning

variable {tuning after : ConfiguredTuning}

theorem origin_of_revalidated (origin : TuningOrigin tuning.toCollectiveTuning)
    (made : tuning.revalidated = .ok after) :
    TuningOrigin after.toCollectiveTuning := by
  obtain ⟨_, rfl⟩ := (revalidated_eq_ok_iff after).mp made
  exact origin

theorem origin_withInferredHierarchy {payloadBytes : Nat}
    (origin : TuningOrigin tuning.toCollectiveTuning)
    (made : tuning.withInferredHierarchy payloadBytes = .ok after) :
    TuningOrigin after.toCollectiveTuning := by
  obtain ⟨_, _, made⟩ := of_bind made
  obtain ⟨_, _, made⟩ := of_bind made
  refine origin_of_revalidated ?_ made
  exact ⟨origin.represented, origin.fewRings⟩

theorem origin_withAutotuneProfilePath {environment : Environment}
    {path : List Char} (origin : TuningOrigin tuning.toCollectiveTuning)
    (made : tuning.withAutotuneProfilePath environment path = .ok after) :
    TuningOrigin after.toCollectiveTuning := by
  rw [withAutotuneProfilePath] at made
  split at made
  · cases made
  · cases made
  · obtain ⟨_, _, made⟩ := of_bind made
    obtain ⟨_, _, made⟩ := of_bind made
    obtain ⟨_, _, made⟩ := of_bind made
    obtain ⟨_, _, made⟩ := of_bind made
    obtain ⟨_, _, made⟩ := of_bind made
    obtain ⟨_, _, same⟩ := of_bind made
    cases same
    exact ⟨origin.represented, origin.fewRings⟩

theorem origin_fromTopology {policy : AlgorithmPolicy} {threshold : Nat}
    {topology : CollectiveTopology} {order : Option (List Nat)}
    (represented : topology.Represented)
    (made : fromTopology policy threshold topology order = .ok tuning) :
    TuningOrigin tuning.toCollectiveTuning := by
  obtain ⟨_, _, made⟩ := of_bind made
  obtain ⟨_, _, same⟩ := of_bind made
  cases same
  exact ⟨represented, length_ringOrdersWithPrimary_le _ _⟩

theorem represented_readTopology {environment : Environment}
    {worldSize : Nat} {probed : Option CollectiveTopology}
    {topology : CollectiveTopology}
    (fine : ∀ other, probed = some other → other.Represented)
    (ran : environment.readTopology worldSize probed = .ok topology) :
    topology.Represented := by
  rcases read_eq_ok ran with absent | ⟨text, present⟩
  · split at absent
    case h_1 other =>
      cases absent
      exact fine _ rfl
    case h_2 => exact CollectiveTopology.represented_uniform absent
  · split at present
    · exact fine _ ((okOr_eq_ok_iff ..).mp present)
    · exact CollectiveTopology.represented_parseTopologyLinks present

theorem origin_readVariables {environment : Environment} {worldSize : Nat}
    {probed : Option CollectiveTopology} {inferred : Option Nat}
    (fine : ∀ other, probed = some other → other.Represented)
    (ran : readVariables environment worldSize probed = .ok (tuning, inferred)) :
    TuningOrigin tuning.toCollectiveTuning := by
  obtain ⟨_, _, ran⟩ := of_bind ran
  obtain ⟨_, _, ran⟩ := of_bind ran
  obtain ⟨_, _, ran⟩ := of_bind ran
  obtain ⟨_, _, ran⟩ := of_bind ran
  obtain ⟨_, _, ran⟩ := of_bind ran
  obtain ⟨_, _, ran⟩ := of_bind ran
  obtain ⟨_, _, ran⟩ := of_bind ran
  obtain ⟨_, _, ran⟩ := of_bind ran
  obtain ⟨_, _, ran⟩ := of_bind ran
  obtain ⟨_, _, ran⟩ := of_bind ran
  obtain ⟨links, linked, ran⟩ := of_bind ran
  obtain ⟨railed, railRead, ran⟩ := of_bind ran
  obtain ⟨topology, aggregateRead, ran⟩ := of_bind ran
  obtain ⟨_, _, ran⟩ := of_bind ran
  obtain ⟨_, _, ran⟩ := of_bind ran
  obtain ⟨⟨_, _⟩, _, ran⟩ := of_bind ran
  cases ran
  have plain := represented_readTopology fine linked
  have withRails : railed.Represented := by
    rcases read_eq_ok railRead with absent | ⟨_, present⟩
    · cases absent
      exact plain
    · exact plain.parseTopologyRailLinks present
  have withAggregate : topology.Represented := by
    rcases read_eq_ok aggregateRead with absent | ⟨_, present⟩
    · cases absent
      exact withRails
    · exact withRails.parseTopologyAggregateLinks present
  exact ⟨withAggregate, length_ringOrdersWithPrimary_le _ _⟩

theorem origin_fromEnvironmentImpl {environment : Environment}
    {worldSize : Nat} {probed : Option CollectiveTopology}
    (fine : ∀ other, probed = some other → other.Represented)
    (made : fromEnvironmentImpl environment worldSize probed = .ok tuning) :
    TuningOrigin tuning.toCollectiveTuning := by
  obtain ⟨⟨start, inferred⟩, read, made⟩ := of_bind made
  obtain ⟨grouped, infers, made⟩ := of_bind made
  obtain ⟨_, _, made⟩ := of_bind made
  have origin := origin_readVariables fine read
  have groupedOrigin : TuningOrigin grouped.toCollectiveTuning := by
    cases inferred with
    | none =>
        cases infers
        exact origin
    | some payloadBytes => exact origin_withInferredHierarchy origin infers
  rcases read_eq_ok made with absent | ⟨path, present⟩
  · cases absent
    exact groupedOrigin
  · exact origin_withAutotuneProfilePath groupedOrigin present

theorem Reachable.origin (reachable : Reachable tuning) :
    TuningOrigin tuning.toCollectiveTuning := by
  induction reachable with
  | new made =>
      obtain ⟨_, _, made⟩ := of_bind made
      obtain ⟨topology, uniform, made⟩ := of_bind made
      exact origin_fromTopology (CollectiveTopology.represented_uniform uniform) made
  | fromTopology built made => exact origin_fromTopology built.represented made
  | fromEnvironment made =>
      exact origin_fromEnvironmentImpl (fun _ absent => by cases absent) made
  | fromEnvironmentWithTopology built made =>
      refine origin_fromEnvironmentImpl ?_ made
      rintro other ⟨⟩
      exact built.represented
  | withTransport _ made origin =>
      rw [ConfiguredTuning.withTransport] at made
      refine origin_of_revalidated ?_ made
      exact ⟨origin.represented, origin.fewRings⟩
  | withInferredHierarchy _ made origin => exact origin_withInferredHierarchy origin made
  | withP2pRails _ made origin =>
      obtain ⟨_, _, made⟩ := of_bind made
      obtain ⟨_, _, made⟩ := of_bind made
      refine origin_of_revalidated ?_ made
      exact ⟨origin.represented, origin.fewRings⟩
  | withAutotuneProfile _ made origin =>
      obtain ⟨_, _, same⟩ := of_bind made
      cases same
      exact ⟨origin.represented, origin.fewRings⟩
  | withAutotuneProfilePath _ made origin => exact origin_withAutotuneProfilePath origin made
  | withDirectTransport _ made origin
  | withHierarchy _ made origin
  | withRingChannels _ made origin
  | withRailOrder _ made origin =>
      obtain ⟨_, _, made⟩ := of_bind made
      refine origin_of_revalidated ?_ made
      exact ⟨origin.represented, origin.fewRings⟩

end ConfiguredTuning

theorem mem_rankPairs {worldSize first second : Nat} :
    (first, second) ∈ rankPairs worldSize ↔
      first < second ∧ second < worldSize := by
  simp only [rankPairs, List.mem_flatMap, List.mem_range, List.mem_map,
    Prod.mk.injEq, CollectiveTopology.ranksBehind, List.mem_range'_1]
  constructor
  · rintro ⟨_, _, _, ⟨above, inside⟩, rfl, rfl⟩
    omega
  · rintro ⟨below, inside⟩
    exact ⟨first, by omega, second, by omega, rfl, rfl⟩

theorem prefixFree_linkWords : PrefixFree (fun _ : Option LinkCost => True) linkWords := by
  intro first second _ _ behindFirst behindSecond same
  cases first with
  | none =>
      cases second with
      | none => exact ⟨rfl, (List.cons.inj same).2⟩
      | some cost => cases (List.cons.inj same).1
  | some cost =>
      cases second with
      | none => cases (List.cons.inj same).1
      | some other =>
          obtain ⟨bandwidth, latency⟩ := cost
          obtain ⟨otherBandwidth, otherLatency⟩ := other
          simp only [linkWords, List.cons_append, List.nil_append,
            List.cons.injEq, true_and] at same
          obtain ⟨rfl, rfl, rest⟩ := same
          exact ⟨rfl, rest⟩

theorem prefixFree_bandwidthWords : PrefixFree (fun _ : Option Nat => True) bandwidthWords := by
  intro first second _ _ behindFirst behindSecond same
  cases first with
  | none =>
      cases second with
      | none => exact ⟨rfl, (List.cons.inj same).2⟩
      | some bandwidth => cases (List.cons.inj same).1
  | some bandwidth =>
      cases second with
      | none => cases (List.cons.inj same).1
      | some other =>
          simp only [bandwidthWords, List.cons_append, List.nil_append,
            List.cons.injEq, true_and] at same
          obtain ⟨rfl, rest⟩ := same
          exact ⟨rfl, rest⟩

theorem prefixFree_listWords : PrefixFree (fun _ : List (List Nat) => True) listWords := by
  have word := @prefixFree_singleton Nat fun _ => True
  have inner : PrefixFree (fun _ : List Nat => True)
      (fun list : List Nat => list.length :: list) := by
    intro first second _ _ behindFirst behindSecond same
    refine word.counted (fun _ _ => trivial) (fun _ _ => trivial) ?_
    dsimp only
    rw [List.flatMap_singleton', List.flatMap_singleton']
    exact same
  intro first second _ _ behindFirst behindSecond same
  exact inner.counted (fun _ _ => trivial) (fun _ _ => trivial) same

namespace CollectiveTopology

/-- The words of the entries above the diagonal, each behind its ranks. -/
def matrixWords {α : Type} (encode : Option α → List Nat) (size : Nat)
    (matrix : List (List (Option α))) : List Nat :=
  (rankPairs size).flatMap fun (first, second) =>
    [first, second] ++ encode (entryAt matrix first second)

/-- The words of undirected links determine them. -/
theorem prefixFree_matrixWords {α : Type} {encode : Option α → List Nat}
    (free : PrefixFree (fun _ => True) encode) (size : Nat)
    (good : α → Prop) :
    PrefixFree (Undirected size good) (matrixWords encode size) := by
  intro first second undirected otherUndirected behindFirst behindSecond same
  obtain ⟨entries, rest⟩ := free.table
    (fun pair : Nat × Nat => [pair.1, pair.2]) (fun _ _ => trivial)
    (fun _ _ => trivial) same
  refine ⟨undirected.ext otherUndirected ?_, rest⟩
  intro row column below inside
  exact entries (row, column) (mem_rankPairs.mpr ⟨below, inside⟩)

/-- A rail with its links, behind its number. -/
def railWords (size : Nat) (rail : List (List (Option LinkCost)) × Nat) : List Nat :=
  rail.2 :: matrixWords linkWords size rail.1

theorem prefixFree_railWords (size : Nat) :
    PrefixFree
      (fun rail : List (List (Option LinkCost)) × Nat =>
        Undirected size GoodCost rail.1) (railWords size) := by
  intro first second undirected otherUndirected behindFirst behindSecond same
  obtain ⟨links, rail⟩ := first
  obtain ⟨otherLinks, otherRail⟩ := second
  obtain ⟨number, later⟩ := List.cons.inj same
  obtain ⟨same, rest⟩ := prefixFree_matrixWords prefixFree_linkWords size
    GoodCost undirected otherUndirected later
  exact ⟨Prod.ext same number, rest⟩

/-- The section of the rails. -/
def railSection (topology : CollectiveTopology) : Option (List Nat) :=
  if topology.railLinks = [] then none
  else some (topology.railLinks.length ::
    topology.railLinks.zipIdx.flatMap (railWords topology.worldSize))

/-- The section of the aggregate links. -/
def aggregateSection (topology : CollectiveTopology) : Option (List Nat) :=
  if ∃ row ∈ topology.aggregateLinks, ∃ entry ∈ row, entry ≠ none then
    some (matrixWords bandwidthWords topology.worldSize topology.aggregateLinks)
  else none

def railMarker : Nat := 0x47585241494c4c4b
def aggregateMarker : Nat := 0x4758414747524547

theorem words_eq (topology : CollectiveTopology) :
    topology.words = topology.worldSize ::
        (matrixWords linkWords topology.worldSize topology.links ++
          (markedSection railMarker topology.railSection ++
            markedSection aggregateMarker topology.aggregateSection)) := by
  rw [words, railSection, aggregateSection]
  split <;> split <;>
    simp only [List.cons_append, List.nil_append, List.append_assoc,
      markedSection, List.append_nil] <;> rfl

/-- What begins with a count that is no marker. -/
def BeginsSmall (words : List Nat) : Prop :=
  ∃ count rest, words = count :: rest ∧ count < aggregateMarker

theorem BeginsSmall.head_ne {words : List Nat} (small : BeginsSmall words)
    {marker : Nat} (large : aggregateMarker ≤ marker) :
    words.head? ≠ some marker := by
  obtain ⟨count, rest, rfl, below⟩ := small
  rw [List.head?_cons, Ne, Option.some.injEq]
  omega

variable {first second : CollectiveTopology} {behindFirst behindSecond : List Nat}

theorem railSection_inj (firstRep : first.Represented) (secondRep : second.Represented)
    (size : first.worldSize = second.worldSize)
    (firstFree : behindFirst.head? ≠ some railMarker)
    (secondFree : behindSecond.head? ≠ some railMarker)
    (same : markedSection railMarker first.railSection ++ behindFirst =
      markedSection railMarker second.railSection ++ behindSecond) :
    first.railLinks = second.railLinks ∧ behindFirst = behindSecond := by
  rcases markedSection_inj firstFree secondFree same with
    ⟨noFirst, noSecond, rest⟩ | ⟨_, _, someFirst, someSecond, same⟩
  · rw [railSection] at noFirst noSecond
    split at noFirst
    case isTrue firstNone =>
      split at noSecond
      case isTrue secondNone => exact ⟨firstNone.trans secondNone.symm, rest⟩
      case isFalse => cases noSecond
    case isFalse => cases noFirst
  · rw [railSection] at someFirst someSecond
    split at someFirst
    · cases someFirst
    split at someSecond
    · cases someSecond
    cases someFirst
    cases someSecond
    obtain ⟨length, same⟩ := List.cons.inj same
    rw [size] at same
    have rails := (prefixFree_railWords second.worldSize).flatMap
      (by rw [List.length_zipIdx, List.length_zipIdx, length])
      (fun rail among => by
        rw [← size]
        exact firstRep.railLinks _ (List.fst_mem_of_mem_zipIdx among))
      (fun rail among =>
        secondRep.railLinks _ (List.fst_mem_of_mem_zipIdx among)) same
    refine ⟨?_, rails.2⟩
    have links := congrArg (List.map Prod.fst) rails.1
    rw [List.zipIdx_map_fst, List.zipIdx_map_fst] at links
    exact links

theorem entryAt_of_no_aggregate
    (none : ¬∃ row ∈ first.aggregateLinks, ∃ entry ∈ row,
      entry ≠ Option.none) (row column : Nat) :
    entryAt first.aggregateLinks row column = Option.none := by
  cases found : entryAt first.aggregateLinks row column with
  | none => rfl
  | some bandwidth =>
      rw [entryAt, Option.join_eq_some_iff] at found
      obtain ⟨links, located, inRow⟩ := Option.bind_eq_some_iff.mp found
      exact absurd ⟨links, List.mem_of_getElem? located, some bandwidth,
        List.mem_of_getElem? inRow, fun absurd => by cases absurd⟩ none

theorem aggregateSection_inj (firstRep : first.Represented) (secondRep : second.Represented)
    (size : first.worldSize = second.worldSize)
    (firstFree : behindFirst.head? ≠ some aggregateMarker)
    (secondFree : behindSecond.head? ≠ some aggregateMarker)
    (same : markedSection aggregateMarker first.aggregateSection ++ behindFirst =
      markedSection aggregateMarker second.aggregateSection ++ behindSecond) :
    first.aggregateLinks = second.aggregateLinks ∧ behindFirst = behindSecond := by
  have firstLinks := firstRep.aggregateLinks
  rw [size] at firstLinks
  rcases markedSection_inj firstFree secondFree same with
    ⟨noFirst, noSecond, rest⟩ | ⟨_, _, someFirst, someSecond, same⟩
  · rw [aggregateSection] at noFirst noSecond
    split at noFirst
    · cases noFirst
    case isFalse firstNone =>
      split at noSecond
      · cases noSecond
      case isFalse secondNone =>
        refine ⟨firstLinks.ext secondRep.aggregateLinks ?_, rest⟩
        intro row column _ _
        rw [entryAt_of_no_aggregate firstNone, entryAt_of_no_aggregate secondNone]
  · rw [aggregateSection] at someFirst someSecond
    split at someFirst
    · split at someSecond
      · cases someFirst
        cases someSecond
        rw [size] at same
        exact prefixFree_matrixWords prefixFree_bandwidthWords
          second.worldSize (· ≠ 0) firstLinks secondRep.aggregateLinks same
      · cases someSecond
    · cases someFirst

/-- The words of a topology determine it, whatever small count comes next. -/
theorem words_inj (firstRep : first.Represented)
    (secondRep : second.Represented) (firstSmall : BeginsSmall behindFirst)
    (secondSmall : BeginsSmall behindSecond)
    (same : first.words ++ behindFirst = second.words ++ behindSecond) :
    first = second ∧ behindFirst = behindSecond := by
  rw [words_eq, words_eq, List.cons_append, List.cons_append,
    List.append_assoc, List.append_assoc, List.append_assoc,
    List.append_assoc] at same
  obtain ⟨size, same⟩ := List.cons.inj same
  have firstLinks := firstRep.links
  rw [size] at same firstLinks
  obtain ⟨links, same⟩ := prefixFree_matrixWords prefixFree_linkWords
    second.worldSize GoodCost firstLinks secondRep.links same
  have notRail : ∀ {topology : CollectiveTopology} {behind : List Nat}, BeginsSmall behind →
      (markedSection aggregateMarker topology.aggregateSection ++
        behind).head? ≠ some railMarker := by
    intro topology behind small
    cases topology.aggregateSection with
    | none => exact small.head_ne (by decide)
    | some body =>
        rw [markedSection, List.cons_append, List.head?_cons]
        decide
  obtain ⟨railLinks, same⟩ := railSection_inj firstRep secondRep size
    (notRail firstSmall) (notRail secondSmall) same
  obtain ⟨aggregateLinks, rest⟩ := aggregateSection_inj firstRep secondRep
    size (firstSmall.head_ne (Nat.le_refl _))
    (secondSmall.head_ne (Nat.le_refl _)) same
  refine ⟨?_, rest⟩
  cases first
  cases second
  cases size
  cases links
  cases railLinks
  cases aggregateLinks
  rfl

end CollectiveTopology

namespace CollectiveTuning

variable (tuning : CollectiveTuning)

def groupWords : Option (List (List Nat)) → List Nat
  | some groups => listWords groups
  | none => [0]

/-- The words behind those of the topology. -/
def settingWords : List Nat := listWords tuning.ringOrders ++
    (groupWords tuning.hierarchyGroups ++
      ([tuning.directBandwidthMbps, tuning.directLatencyNs] ++
        (markedSection 0x47585241494c0001
            (if tuning.p2pRails = 1 then none else some [tuning.p2pRails]) ++
          markedSection 0x47585241494c4f52
            (if tuning.railOrder = List.range tuning.p2pRails then none
              else some tuning.railOrder))))

/-- The words that are fed to the hash of the fingerprint. -/
def fingerprintWords : List Nat := tuning.topology.words ++ tuning.settingWords

theorem topologyFingerprint_eq :
    tuning.topologyFingerprint = hashWords tuning.fingerprintWords := by
  rw [topologyFingerprint, fingerprintWords, settingWords]
  split <;> split <;> split <;>
    simp only [groupWords, markedSection, List.append_assoc, List.append_nil, List.nil_append, *]

variable {tuning}

theorem beginsSmall_settingWords (origin : TuningOrigin tuning) :
    CollectiveTopology.BeginsSmall tuning.settingWords := by
  refine ⟨tuning.ringOrders.length, _, rfl, ?_⟩
  have few := origin.fewRings
  have bound : maxRingChannels + 1 < CollectiveTopology.aggregateMarker := by
    decide
  omega

/-- Groups are told apart from none, since there are at least two of them. -/
theorem prefixFree_groupWords :
    PrefixFree (fun groups : Option (List (List Nat)) => groups ≠ some [])
      groupWords := by
  intro first second some otherSome behindFirst behindSecond same
  cases first with
  | none =>
      cases second with
      | none => exact ⟨rfl, (List.cons.inj same).2⟩
      | some groups =>
          have length := (List.cons.inj same).1
          rw [List.eq_nil_of_length_eq_zero length.symm] at otherSome
          exact absurd rfl otherSome
  | some groups =>
      cases second with
      | none =>
          have length := (List.cons.inj same).1
          rw [List.eq_nil_of_length_eq_zero length] at some
          exact absurd rfl some
      | some others =>
          obtain ⟨groupsSame, rest⟩ := prefixFree_listWords trivial trivial same
          exact ⟨congrArg Option.some groupsSame, rest⟩

/-- The sections of the rails determine their count and their order. -/
theorem railWords_inj {first second : CollectiveTuning}
    (same : markedSection 0x47585241494c0001
          (if first.p2pRails = 1 then none else some [first.p2pRails]) ++
        markedSection 0x47585241494c4f52
          (if first.railOrder = List.range first.p2pRails then none
            else some first.railOrder) =
      markedSection 0x47585241494c0001
          (if second.p2pRails = 1 then none else some [second.p2pRails]) ++
        markedSection 0x47585241494c4f52
          (if second.railOrder = List.range second.p2pRails then none
            else some second.railOrder)) :
    first.p2pRails = second.p2pRails ∧ first.railOrder = second.railOrder := by
  have notCount : ∀ order : Option (List Nat), (markedSection 0x47585241494c4f52 order).head? ≠
        some 0x47585241494c0001 := by
    intro order
    cases order with
    | none => exact fun absurd => by cases absurd
    | some rails =>
        rw [markedSection, List.head?_cons]
        decide
  have counted : first.p2pRails = second.p2pRails ∧ markedSection 0x47585241494c4f52
          (if first.railOrder = List.range first.p2pRails then none
            else some first.railOrder) =
        markedSection 0x47585241494c4f52
          (if second.railOrder = List.range second.p2pRails then none
            else some second.railOrder) := by
    rcases markedSection_inj (notCount _) (notCount _) same with
      ⟨firstOne, secondOne, rest⟩ | ⟨_, _, firstMany, secondMany, rest⟩
    · refine ⟨?_, rest⟩
      split at firstOne
      case isTrue one =>
        split at secondOne
        case isTrue otherOne => exact one.trans otherOne.symm
        case isFalse => cases secondOne
      case isFalse => cases firstOne
    · split at firstMany
      · cases firstMany
      · split at secondMany
        · cases secondMany
        · cases firstMany
          cases secondMany
          exact List.cons.inj rest
  obtain ⟨count, ordered⟩ := counted
  refine ⟨count, ?_⟩
  rw [count] at ordered
  split at ordered
  case isTrue plain =>
    split at ordered
    case isTrue otherPlain => exact plain.trans otherPlain.symm
    case isFalse => cases ordered
  case isFalse =>
    split at ordered
    case isTrue => cases ordered
    case isFalse => exact (List.cons.inj ordered).2

end CollectiveTuning

/-- A fingerprint is the hash of words that determine the topology and all settings
they are made from. -/
theorem fingerprint_covers_tuning (first second : ConfiguredTuning)
    (firstReachable : first.Reachable)
    (secondReachable : second.Reachable) :
    first.topologyFingerprint = hashWords first.fingerprintWords ∧
      (first.fingerprintWords = second.fingerprintWords → first.topology = second.topology ∧
        first.ringOrders = second.ringOrders ∧
        first.hierarchyGroups = second.hierarchyGroups ∧
        first.directBandwidthMbps = second.directBandwidthMbps ∧
        first.directLatencyNs = second.directLatencyNs ∧
        first.p2pRails = second.p2pRails ∧
        first.railOrder = second.railOrder) := by
  refine ⟨first.topologyFingerprint_eq, fun same => ?_⟩
  have someGroups : ∀ {tuning : ConfiguredTuning}, tuning.Reachable →
      tuning.hierarchyGroups ≠ some [] := by
    intro tuning reachable none
    have several := (reachable.sound.groups [] none).several
    exact absurd several (by decide)
  have firstOrigin := firstReachable.origin
  have secondOrigin := secondReachable.origin
  obtain ⟨topology, same⟩ := CollectiveTopology.words_inj
    firstOrigin.represented secondOrigin.represented
    (CollectiveTuning.beginsSmall_settingWords firstOrigin)
    (CollectiveTuning.beginsSmall_settingWords secondOrigin) same
  obtain ⟨rings, same⟩ := prefixFree_listWords trivial trivial same
  obtain ⟨groups, same⟩ := CollectiveTuning.prefixFree_groupWords
    (someGroups firstReachable) (someGroups secondReachable) same
  obtain ⟨bandwidth, same⟩ := List.cons.inj same
  obtain ⟨latency, same⟩ := List.cons.inj same
  obtain ⟨count, order⟩ := CollectiveTuning.railWords_inj same
  exact ⟨topology, rings, groups, bandwidth, latency, count, order⟩

/-- Two rails are told apart from one. -/
theorem fingerprint_covers_tuning_pair :
    { pairTuning with p2pRails := 2 }.fingerprintWords ≠
      pairTuning.fingerprintWords := by
  have made : pairTuning.withP2pRails 2 = .ok { pairTuning with p2pRails := 2 } := rfl
  intro same
  have covered := (fingerprint_covers_tuning { pairTuning with p2pRails := 2 }
    pairTuning (.withP2pRails reachable_pairTuning made)
    reachable_pairTuning).2 same
  exact absurd covered.2.2.2.2.2.1 (by decide)

end RuCCL.Rank

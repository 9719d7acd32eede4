import RuCCL.Library.Beneath
import RuCCL.Rank.ShortestTransfer

/-!
# Estimates grow with the payload

A larger payload is spread over at least as many channels and rails, and what a
channel had before stays on its rail.  So each rail, and the traffic between each
pair of ranks, only grows.
-/

namespace RuCCL.Rank

open RuCCL.Library

theorem saturate64_mono {less more : Nat} (ordered : less ≤ more) :
    saturate64 less ≤ saturate64 more := by
  unfold saturate64
  omega

theorem saturate128_mono {less more : Nat} (ordered : less ≤ more) :
    saturate128 less ≤ saturate128 more := by
  unfold saturate128
  omega

theorem saturate64_add_mono {less more other another : Nat}
    (first : less ≤ more) (second : other ≤ another) :
    saturate64 (less + other) ≤ saturate64 (more + another) :=
  saturate64_mono (Nat.add_le_add first second)

theorem divCeil_mono {less more : Nat} (ordered : less ≤ more) (parts : Nat) :
    divCeil less parts ≤ divCeil more parts := by
  have quotients := Nat.div_le_div_right (c := parts) ordered
  unfold divCeil
  by_cases same : less / parts = more / parts
  · have whole := Nat.div_add_mod less parts
    have otherWhole := Nat.div_add_mod more parts
    rw [same] at whole ⊢
    split <;> split <;> omega
  · split <;> split <;> omega

theorem transferTimeNsU128_mono {less more : Nat} (ordered : less ≤ more) (bandwidthMbps : Nat) :
    transferTimeNsU128 less bandwidthMbps ≤
      transferTimeNsU128 more bandwidthMbps := by
  apply Nat.div_le_div_right
  apply saturate128_mono
  apply Nat.add_le_add_right
  exact saturate128_mono (Nat.mul_le_mul_right 1000 ordered)

theorem transferTimeNs_mono {less more : Nat} (ordered : less ≤ more) (bandwidthMbps : Nat) :
    transferTimeNs less bandwidthMbps ≤ transferTimeNs more bandwidthMbps :=
  saturate64_mono (transferTimeNsU128_mono ordered bandwidthMbps)

theorem linkTransferTimeNs_mono {less more : Nat} (ordered : less ≤ more) (link : LinkCost) :
    linkTransferTimeNs link less ≤ linkTransferTimeNs link more :=
  saturate64_add_mono le_rfl (transferTimeNs_mono ordered _)

theorem foldl_max_le {values : List Nat} {start : Option Nat} {bound : Nat} :
    ((values.foldl (fun best value =>
      some (max (best.getD 0) value)) start).getD 0 ≤ bound) ↔
      start.getD 0 ≤ bound ∧ ∀ value ∈ values, value ≤ bound := by
  induction values generalizing start with
  | nil => simp
  | cons head rest ih =>
      rw [List.foldl_cons, ih]
      simp only [Option.getD_some, List.mem_cons, forall_eq_or_imp, max_le_iff, and_assoc]

theorem maximum_le {values : List Nat} {bound : Nat} :
    (maximum values).getD 0 ≤ bound ↔ ∀ value ∈ values, value ≤ bound := by
  rw [maximum, foldl_max_le]
  simp

theorem le_maximum {values : List Nat} {value : Nat}
    (among : value ∈ values) : value ≤ (maximum values).getD 0 :=
  maximum_le.mp le_rfl value among

theorem maximum_mono {values others : List Nat} (ordered : List.Forall₂ (· ≤ ·) values others) :
    (maximum values).getD 0 ≤ (maximum others).getD 0 := by
  have each : ∀ value ∈ values, ∃ other ∈ others, value ≤ other := by
    induction ordered with
    | nil =>
        intro value among
        cases among
    | cons head _ ih =>
        intro value among
        rcases List.mem_cons.mp among with rfl | behind
        · exact ⟨_, List.mem_cons_self, head⟩
        · obtain ⟨other, member, below⟩ := ih value behind
          exact ⟨other, List.mem_cons_of_mem _ member, below⟩
  rw [maximum_le]
  intro value among
  obtain ⟨other, member, below⟩ := each value among
  exact below.trans (le_maximum member)

/-- Values that are there at all have a greatest one. -/
theorem maximum_eq_some {values : List Nat} (some : values ≠ []) :
    maximum values = Option.some ((maximum values).getD 0) := by
  have kept (rest : List Nat) (start : Nat) :
      ∃ best, rest.foldl (fun best value =>
        Option.some (max (best.getD 0) value)) (Option.some start) =
          Option.some best := by
    induction rest generalizing start with
    | nil => exact ⟨start, rfl⟩
    | cons head rest ih => exact ih (max start head)
  cases values with
  | nil => exact absurd rfl some
  | cons head rest =>
      obtain ⟨best, found⟩ := kept rest (max 0 head)
      have whole : maximum (head :: rest) = Option.some best := found
      rw [whole]
      rfl

theorem maximum_beneath {values others : List Nat}
    (ordered : List.Forall₂ (· ≤ ·) values others) :
    Beneath (· ≤ ·) (maximum values) (maximum others) := by
  by_cases empty : values = []
  · rw [empty] at ordered ⊢
    cases ordered
    intro value absent
    cases absent
  · have otherSome : others ≠ [] := by
      intro absent
      rw [absent] at ordered
      cases ordered
      exact empty rfl
    rw [maximum_eq_some empty, maximum_eq_some otherSome]
    exact Beneath.found (maximum_mono ordered)

/-- What channel `channel` of a balanced split carries. -/
def share (bytes channels channel : Nat) : Nat :=
  bytes / channels + if channel < bytes % channels then 1 else 0

theorem share_mono {less more : Nat} (ordered : less ≤ more) (channels channel : Nat) :
    share less channels channel ≤ share more channels channel := by
  have quotients := Nat.div_le_div_right (c := channels) ordered
  unfold share
  by_cases same : less / channels = more / channels
  · have whole := Nat.div_add_mod less channels
    have otherWhole := Nat.div_add_mod more channels
    rw [same] at whole ⊢
    split <;> split <;> omega
  · split <;> split <;> omega

/-- Few bytes are spread one by one. -/
theorem share_of_le {bytes channels channel : Nat}
    (few : bytes ≤ channels) (inside : channel < channels) :
    share bytes channels channel = if channel < bytes then 1 else 0 := by
  unfold share
  rcases Nat.lt_or_ge bytes channels with less | more
  · rw [Nat.div_eq_of_lt less, Nat.mod_eq_of_lt less, Nat.zero_add]
  · have same : bytes = channels := Nat.le_antisymm few more
    rw [same, Nat.div_self (by omega), Nat.mod_self, if_pos inside,
      if_neg (Nat.not_lt_zero _)]

/-- A channel that comes before the number of bytes carries some of them. -/
theorem share_pos {bytes channels channel : Nat} (before : channel < bytes)
    (inside : channel < channels) : 1 ≤ share bytes channels channel := by
  unfold share
  rcases Nat.lt_or_ge bytes channels with less | more
  · rw [Nat.div_eq_of_lt less, Nat.mod_eq_of_lt less, if_pos before]
  · have positive : 0 < bytes / channels := Nat.div_pos more (by omega)
    omega

/-- The channels that a number of bytes is spread over. -/
def channelsFor (limit bytes : Nat) : Nat := max (min limit (max bytes 1)) 1

/-- The rails that a number of channels is spread over. -/
def railsFor (available channels : Nat) : Nat := max (min available channels) 1

theorem channelsFor_mono (limit : Nat) {less more : Nat} (ordered : less ≤ more) :
    channelsFor limit less ≤ channelsFor limit more := by
  unfold channelsFor
  omega

theorem railsFor_mono (available : Nat) {less more : Nat} (ordered : less ≤ more) :
    railsFor available less ≤ railsFor available more := by
  unfold railsFor
  omega

/-- A channel stays on its rail when there are more of them. -/
theorem slot_stays {available less more channel : Nat}
    (ordered : less ≤ more) (inside : channel < less) :
    channel % railsFor available less = channel % railsFor available more := by
  by_cases spread : less ≤ available
  · have few : railsFor available less = less := by
      unfold railsFor
      omega
    have many : less ≤ railsFor available more := by
      unfold railsFor
      omega
    rw [few, Nat.mod_eq_of_lt inside, Nat.mod_eq_of_lt (by omega)]
  · have same : railsFor available less = railsFor available more := by
      unfold railsFor
      omega
    rw [same]

/-- The share of a channel grows with the bytes, even when these are spread over more
channels. -/
theorem share_spread_mono {limit least most less more channel : Nat}
    (inside : channel < channelsFor limit least) (below : less ≤ least)
    (spread : least ≤ most) (ordered : less ≤ more) :
    share less (channelsFor limit least) channel ≤
      share more (channelsFor limit most) channel := by
  have grown := channelsFor_mono limit spread
  by_cases same : channelsFor limit least = channelsFor limit most
  · rw [same] at inside ⊢
    exact share_mono ordered _ _
  · have few : less ≤ channelsFor limit least := by
      unfold channelsFor at same ⊢
      omega
    rw [share_of_le few inside]
    split
    case isTrue before => exact share_pos (by omega) (by omega)
    case isFalse => exact Nat.zero_le _

/-- A saturated sum that is no more than another one. -/
structure Under (small large : Nat) : Prop where
  le : small ≤ large
  bounded : small ≤ maxU64

theorem Under.zero (large : Nat) : Under 0 large := ⟨Nat.zero_le _, Nat.zero_le _⟩

theorem Under.add {small large less more : Nat} (under : Under small large)
    (ordered : less ≤ more) :
    Under (saturate64 (small + less)) (saturate64 (large + more)) :=
  ⟨saturate64_add_mono under.le ordered, Nat.min_le_right _ _⟩

/-- What is added to the larger sum alone. -/
theorem Under.grow {small large : Nat} (under : Under small large)
    (more : Nat) : Under small (saturate64 (large + more)) := by
  refine ⟨?_, under.bounded⟩
  have le := under.le
  have bounded := under.bounded
  unfold saturate64
  omega

/-- Traffic between each pair of ranks that is no more. -/
def Traffic.Within (small large : Traffic) : Prop :=
  ∀ first second, Under (small first second) (large first second)

theorem Traffic.Within.add {small large : Traffic}
    (within : small.Within large) {less more : Nat} (ordered : less ≤ more)
    (source destination : Nat) :
    (small.add source destination less).Within (large.add source destination more) := by
  intro first second
  unfold Traffic.add
  split
  case isTrue => exact (within first second).add ordered
  case isFalse => exact within first second

theorem Traffic.Within.grow {small large : Traffic}
    (within : small.Within large) (source destination more : Nat) :
    small.Within (large.add source destination more) := by
  intro first second
  unfold Traffic.add
  split
  case isTrue => exact (within first second).grow more
  case isFalse => exact within first second

/-- The first load has, on each of its rails and between each pair of ranks, no more
than the second one. -/
structure Load.Within (small large : Load) : Prop where
  times : ∀ slot time : Nat, small.railTimes[slot]? = some time →
    ∃ later : Nat, large.railTimes[slot]? = some later ∧ Under time later
  traffic : small.traffic.Within large.traffic

theorem Load.Within.idle {rails others : Nat} (fewer : rails ≤ others) :
    (Load.idle rails).Within (Load.idle others) where
  times := by
    intro slot time found
    simp only [Load.idle, List.getElem?_replicate] at found ⊢
    split at found
    case isTrue inside =>
      cases found
      exact ⟨0, if_pos (by omega), Under.zero 0⟩
    case isFalse => cases found
  traffic := fun _ _ => Under.zero _

theorem Load.Within.addTime {small large : Load} (within : small.Within large)
    {less more : Nat} (ordered : less ≤ more) (slot : Nat) :
    (small.addTime slot less).Within (large.addTime slot more) where
  times := by
    intro other time found
    simp only [Load.addTime, List.getElem?_modify] at found ⊢
    obtain ⟨before, present, changed⟩ := Option.map_eq_some_iff.mp found
    obtain ⟨later, there, under⟩ := within.times other before present
    rw [there]
    refine ⟨_, rfl, ?_⟩
    rw [← changed]
    split
    case isTrue => exact under.add ordered
    case isFalse => exact under
  traffic := within.traffic

theorem Load.Within.growTime {small large : Load}
    (within : small.Within large) (slot more : Nat) :
    small.Within (large.addTime slot more) where
  times := by
    intro other time found
    obtain ⟨later, there, under⟩ := within.times other time found
    simp only [Load.addTime, List.getElem?_modify, there]
    refine ⟨_, rfl, ?_⟩
    split
    case isTrue => exact under.grow more
    case isFalse => exact under
  traffic := within.traffic

theorem Load.Within.withTraffic {small large : Load}
    (within : small.Within large) {traffic heavy : Traffic}
    (carried : traffic.Within heavy) :
    Load.Within { small with traffic := traffic } { large with traffic := heavy } :=
  ⟨within.times, carried⟩

theorem Load.Within.growTraffic {small large : Load}
    (within : small.Within large) {heavy : Traffic}
    (carried : small.traffic.Within heavy) :
    small.Within { large with traffic := heavy } :=
  ⟨within.times, carried⟩

theorem Load.Within.railTime {small large : Load} (within : small.Within large) :
    (maximum small.railTimes).getD 0 ≤ (maximum large.railTimes).getD 0 := by
  rw [maximum_le]
  intro time among
  obtain ⟨slot, found⟩ := List.getElem?_of_mem among
  obtain ⟨later, there, under⟩ := within.times slot time found
  exact under.le.trans (le_maximum (List.mem_of_getElem? there))

namespace CollectiveTopology

variable (topology : CollectiveTopology)

/-- The cap of a pair of ranks only grows with its traffic. -/
theorem aggregateTransferCapNs_mono {small large : Traffic} (within : small.Within large) :
    topology.aggregateTransferCapNs small ≤
      topology.aggregateTransferCapNs large := by
  unfold aggregateTransferCapNs
  refine @foldl_related _ _ _ (· ≤ ·) _ _ _ ?_ _ _ le_rfl
  intro first _ slowest later ordered
  refine @foldl_related _ _ _ (· ≤ ·) _ _ _ ?_ _ _ ordered
  intro second _ slowest later ordered
  have bytes := max_le_max (within first second).le (within second first).le
  dsimp only
  by_cases none : max (small first second) (small second first) = 0
  · rw [if_pos none]
    split
    case isTrue => exact ordered
    case isFalse =>
      cases topology.aggregateBandwidthMbps first second with
      | none => exact ordered
      | some bandwidth => exact ordered.trans (le_max_left _ _)
  · rw [if_neg none, if_neg (by omega)]
    cases topology.aggregateBandwidthMbps first second with
    | none => exact ordered
    | some bandwidth => exact max_le_max ordered (transferTimeNs_mono bytes bandwidth)

theorem stepTimeNs_mono {rails others : Nat} (fewer : rails ≤ others)
    {small large : Load} (within : small.Within large) :
    topology.stepTimeNs rails small ≤ topology.stepTimeNs others large := by
  apply max_le_max within.railTime
  by_cases several : rails > 1
  · rw [if_pos several, if_pos (by omega)]
    exact topology.aggregateTransferCapNs_mono within.traffic
  · rw [if_neg several]
    exact Nat.zero_le _

/-- Channels that are assigned one after the other, and the time of the step. -/
def channelsTimeNs (rails : Nat) (channels : Nat)
    (assign : Load → Nat → Option Load) : Option Nat := do
  let load ← (List.range channels).foldlM assign (Load.idle rails)
  some (topology.stepTimeNs rails load)

/-- A step takes longer when each of its channels and rails has at least as much to
do, and others come on top. -/
theorem channelsTimeNs_beneath {rails others channels more : Nat}
    (fewerRails : rails ≤ others) (fewer : channels ≤ more)
    {assign also : Load → Nat → Option Load}
    (each : ∀ channel < channels, ∀ small large : Load, small.Within large →
      Beneath Load.Within (assign small channel) (also large channel))
    (grows : ∀ channel, channels ≤ channel → channel < more →
      ∀ small large later : Load, small.Within large →
        also large channel = some later → small.Within later) :
    Beneath (· ≤ ·) (topology.channelsTimeNs rails channels assign)
      (topology.channelsTimeNs others more also) := by
  have split : List.range more = List.range channels ++
      List.range' channels (more - channels) := by
    have joined := @List.range'_append_1 0 channels (more - channels)
    rw [Nat.zero_add, Nat.add_sub_cancel' fewer] at joined
    rw [List.range_eq_range', List.range_eq_range', joined]
  have front : Beneath Load.Within ((List.range channels).foldlM assign (Load.idle rails))
      ((List.range channels).foldlM also (Load.idle others)) :=
    Beneath.foldlM_same (fun channel member =>
      each channel (List.mem_range.mp member)) (Load.Within.idle fewerRails)
  have whole : Beneath Load.Within ((List.range channels).foldlM assign (Load.idle rails))
      ((List.range more).foldlM also (Load.idle others)) := by
    rw [split, List.foldlM_append]
    apply Beneath.foldlM_grow _ front
    intro channel member
    obtain ⟨least, below⟩ := List.mem_range'_1.mp member
    exact grows channel least (by omega)
  exact whole.bind fun small large within =>
    Beneath.found (topology.stepTimeNs_mono fewerRails within)

section Shortest

variable {linkOf : Nat → Nat → Option LinkCost} {rankCount bytes : Nat}

/-- A rank outside of the world is never reached. -/
theorem searchRounds_outside {destination : Nat}
    (outside : rankCount ≤ destination) (rounds : Nat) {search : Search}
    (unreached : search.distances destination = maxU64) :
    searchRounds linkOf rankCount destination bytes rounds search = none := by
  induction rounds generalizing search with
  | zero => rw [searchRounds, if_neg (not_not.mpr unreached)]
  | succ rounds ih =>
      rw [searchRounds]
      split
      case h_1 => rfl
      case h_2 current found =>
        have among := (minByKey_least found).1
        have inside := List.mem_range.mp (List.mem_filter.mp among).1
        split
        case isTrue => rw [if_neg (not_not.mpr unreached)]
        case isFalse =>
          rw [if_neg (by omega)]
          apply ih
          rw [relax_eq, (foldl_relaxLink List.nodup_range (Function.update_self ..)).2, if_neg]
          · exact unreached
          · rw [List.mem_range]
            omega

/-- From a rank outside of the world nothing is reached. -/
theorem searchRounds_stuck {destination : Nat} (rounds : Nat) {search : Search}
    (stuck : ∀ rank < rankCount, search.distances rank = maxU64)
    (unreached : search.distances destination = maxU64) :
    searchRounds linkOf rankCount destination bytes rounds search = none := by
  cases rounds with
  | zero => rw [searchRounds, if_neg (not_not.mpr unreached)]
  | succ rounds =>
      rw [searchRounds]
      split
      case h_1 => rfl
      case h_2 current found =>
        have among := (minByKey_least found).1
        have inside := List.mem_range.mp (List.mem_filter.mp among).1
        rw [if_pos (stuck current inside), if_neg (not_not.mpr unreached)]

end Shortest

theorem shortestTransferTimeNsForRail_outside {source destination : Nat}
    (different : source ≠ destination)
    (outside : topology.worldSize ≤ source ∨ topology.worldSize ≤ destination)
    (bytes : Nat) (rail : Option Nat) :
    topology.shortestTransferTimeNsForRail source destination bytes rail =
      none := by
  have unreached : Function.update (fun _ => maxU64) source 0 destination =
      maxU64 :=
    Function.update_of_ne different.symm _ _
  rw [shortestTransferTimeNsForRail, if_neg different]
  rcases outside with outside | outside
  · apply searchRounds_stuck
    · intro rank inside
      have apart : rank ≠ source := by
        omega
      exact Function.update_of_ne apart 0 fun _ => maxU64
    · exact unreached
  · exact searchRounds_outside outside _ unreached

/-- The same walk with fewer bytes. -/
theorem walkTime_mono {linkOf : Nat → Nat → Option LinkCost}
    {inside : Nat → Prop} {source destination less more time : Nat}
    (ordered : less ≤ more)
    (walk : WalkTime linkOf more inside source destination time) :
    ∃ shorter ≤ time,
      WalkTime linkOf less inside source destination shorter := by
  induction walk with
  | start => exact ⟨0, le_rfl, .start⟩
  | @step node next cost weight _ inner link ih =>
      obtain ⟨shorter, below, walk⟩ := ih
      obtain ⟨cost, linked, rfl⟩ := Option.map_eq_some_iff.mp link
      refine ⟨saturatingAdd shorter (linkTransferTimeNs cost less),
        saturate64_add_mono below (linkTransferTimeNs_mono ordered cost),
        .step walk inner ?_⟩
      rw [timeOf, linked]
      rfl

theorem shortestTransferTimeNsForRail_beneath
    (source destination : Nat) {less more : Nat} (ordered : less ≤ more)
    (rail : Option Nat) :
    Beneath (· ≤ ·) (topology.shortestTransferTimeNsForRail source destination less rail)
      (topology.shortestTransferTimeNsForRail source destination more rail) := by
  by_cases different : source = destination
  · unfold shortestTransferTimeNsForRail
    rw [if_pos different, if_pos different]
    exact Beneath.found le_rfl
  · by_cases outside : topology.worldSize ≤ source ∨ topology.worldSize ≤ destination
    · intro time found
      rw [topology.shortestTransferTimeNsForRail_outside different outside] at found
      cases found
    · rw [not_or, Nat.not_le, Nat.not_le] at outside
      have early := topology.shortestTransferTimeNsForRail_least different
        outside.1 outside.2 less rail
      have late := topology.shortestTransferTimeNsForRail_least different
        outside.1 outside.2 more rail
      intro time found
      obtain ⟨below, walk, -⟩ := (late.some_iff time).mp found
      obtain ⟨shorter, ordered, shortWalk⟩ := walkTime_mono ordered walk
      cases result : topology.shortestTransferTimeNsForRail source destination less rail with
      | none =>
          exact absurd ⟨shorter, shortWalk, lt_of_le_of_lt ordered below⟩
            (early.none_iff.mp result)
      | some least =>
          have first := ((early.some_iff least).mp result).2.2
          exact ⟨least, rfl, (first shorter shortWalk).trans ordered⟩

/-- Transfers between the same ranks, of at least as many bytes. -/
def Heavier (transfer other : Nat × Nat × Nat) : Prop :=
  transfer.1 = other.1 ∧ transfer.2.1 = other.2.1 ∧ transfer.2.2 ≤ other.2.2

/-- Traffic and the slowest transfer so far. -/
def StateWithin (state also : Traffic × Nat) : Prop := state.1.Within also.1 ∧ state.2 ≤ also.2

theorem assignChannel_beneath {railOrder : List Nat}
    {rails others channel : Nat} (stays : channel % rails = channel % others)
    {transfers heavier : List (Nat × Nat × Nat)}
    (paired : List.Forall₂ Heavier transfers heavier)
    {small large : Load} (within : small.Within large) :
    Beneath Load.Within (topology.assignChannel railOrder rails channel transfers small)
      (topology.assignChannel railOrder others channel heavier large) := by
  unfold assignChannel
  rw [stays]
  refine @Beneath.bind _ _ _ _ StateWithin _ _ _ _ _ ?_ ?_
  · apply Beneath.foldlM paired
    · rintro ⟨source, destination, less⟩ ⟨_, _, more⟩ ⟨rfl, rfl, ordered⟩
        state also ⟨traffic, slowest⟩
      exact (topology.shortestTransferTimeNsForRail_beneath source destination
        ordered _).bind fun time later below =>
          Beneath.found ⟨traffic.add ordered _ _, max_le_max slowest below⟩
    · exact ⟨within.traffic, le_rfl⟩
  · rintro ⟨traffic, slowest⟩ ⟨heavy, slow⟩ ⟨carried, below⟩
    exact Beneath.found ((within.withTraffic carried).addTime below _)

/-- A channel on top of the others. -/
theorem assignChannel_grows {railOrder : List Nat} {rails channel : Nat}
    {transfers : List (Nat × Nat × Nat)} {small large later : Load}
    (within : small.Within large)
    (assigned : topology.assignChannel railOrder rails channel transfers large = some later) :
    small.Within later := by
  obtain ⟨⟨traffic, slowest⟩, folded, stored⟩ := Option.bind_eq_some_iff.mp assigned
  cases stored
  have carried : Beneath
      (fun (_ : Unit) (state : Traffic × Nat) =>
        small.traffic.Within state.1)
      (some ()) (some (traffic, slowest)) := by
    rw [← folded]
    refine @Beneath.foldlM_grow _ _ _ _ _ (some (large.traffic, 0)) _ _ ?_
      (Beneath.found within.traffic)
    intro transfer _ _ state next kept moved
    obtain ⟨time, -, moved⟩ := Option.bind_eq_some_iff.mp moved
    cases moved
    exact kept.grow _ _ _
  obtain ⟨_, -, kept⟩ := carried _ rfl
  exact (within.growTraffic kept).growTime _ _

theorem balancedSizes_zipIdx (bytes channels : Nat) :
    (balancedSizes bytes channels).zipIdx = (List.range channels).map fun channel =>
        (share bytes channels channel, channel) := by
  apply List.ext_getElem?
  intro index
  rw [List.getElem?_zipIdx, balancedSizes, List.getElem?_map, List.getElem?_map, Option.map_map]
  by_cases inside : index < channels
  · rw [List.getElem?_range inside, Nat.zero_add]
    rfl
  · rw [List.getElem?_eq_none (by simpa using inside)]
    rfl

/-- A step whose bytes are spread over channels and rails. -/
def spreadTimeNs (available limit bytes : Nat)
    (assign : Nat → Nat → Load → Nat → Option Load) : Option Nat :=
  let channels := channelsFor limit bytes
  let rails := railsFor available channels
  topology.channelsTimeNs rails channels (assign rails channels)

theorem spreadTimeNs_beneath {available limit less more : Nat} (ordered : less ≤ more)
    {assign also : Nat → Nat → Load → Nat → Option Load}
    (each : ∀ rails others channel, channel % rails = channel % others →
      channel < channelsFor limit less → ∀ small large : Load, small.Within large →
          Beneath Load.Within (assign rails (channelsFor limit less) small channel)
            (also others (channelsFor limit more) large channel))
    (grows : ∀ rails channels channel, ∀ small large later : Load,
      small.Within large → also rails channels large channel = some later → small.Within later) :
    Beneath (· ≤ ·) (topology.spreadTimeNs available limit less assign)
      (topology.spreadTimeNs available limit more also) := by
  have fewer := channelsFor_mono limit ordered
  apply topology.channelsTimeNs_beneath (railsFor_mono _ fewer) fewer
  · intro channel inside small large within
    exact each _ _ channel (slot_stays fewer inside) inside small large within
  · intro channel _ _ small large later within assigned
    exact grows _ _ channel small large later within assigned

/-- The transfers of a channel in a step between pairs of ranks. -/
def pairwiseTransfers (order : List Nat) (bytes step channels channel : Nat) :
    List (Nat × Nat × Nat) :=
  (List.range order.length).map fun position =>
    (order.getD position 0, order.getD ((position + step) % order.length) 0,
      share bytes channels channel)

theorem pairwiseTimeNs_eq (order : List Nat) (bytesPerPeer limit : Nat) (railOrder : List Nat) :
    topology.pairwiseTimeNs order bytesPerPeer limit railOrder =
      if order.length ≤ 1 then some 0
      else if railOrder = [] then none
      else (List.range' 1 (order.length - 1)).foldlM (fun total step => do
        let time ← topology.spreadTimeNs railOrder.length limit bytesPerPeer
          fun rails channels load channel =>
            topology.assignChannel railOrder rails channel
              (pairwiseTransfers order bytesPerPeer step channels channel)
              load
        some (saturate64 (total + time))) 0 := by
  unfold pairwiseTimeNs
  simp only [balancedSizes_zipIdx, List.foldlM_map]
  simp only [spreadTimeNs, channelsTimeNs, Option.bind_eq_bind,
    Option.bind_assoc, Option.bind_some]
  rfl

theorem pairwiseTimeNs_beneath (order railOrder : List Nat) (limit : Nat)
    {less more : Nat} (ordered : less ≤ more) :
    Beneath (· ≤ ·) (topology.pairwiseTimeNs order less limit railOrder)
      (topology.pairwiseTimeNs order more limit railOrder) := by
  rw [pairwiseTimeNs_eq, pairwiseTimeNs_eq]
  split
  case isTrue => exact Beneath.found le_rfl
  case isFalse =>
    split
    case isTrue =>
      intro time absent
      cases absent
    case isFalse =>
      apply Beneath.foldlM_same _ le_rfl
      intro step _ total later below
      refine Beneath.bind (topology.spreadTimeNs_beneath ordered ?_ ?_) fun time slower grown =>
          Beneath.found (saturate64_add_mono below grown)
      · intro rails others channel stays inside small large within
        apply topology.assignChannel_beneath stays _ within
        rw [pairwiseTransfers, pairwiseTransfers, List.forall₂_map_left_iff,
          List.forall₂_map_right_iff, List.forall₂_same]
        intro position _
        exact ⟨rfl, rfl, share_spread_mono inside le_rfl ordered ordered⟩
      · intro rails channels channel small large later within assigned
        exact topology.assignChannel_grows within assigned

end CollectiveTopology

namespace CollectiveTuning

variable (tuning : CollectiveTuning)

/-- The transfers of a channel in a step of a ring. -/
def stripedTransfers (order bytesByPosition : List Nat)
    (channels channel : Nat) : List (Nat × Nat × Nat) :=
  ((ringPairs order).zip bytesByPosition).map fun (pair, bytes) =>
    (pair.1, pair.2, (balancedSizes bytes channels).getD channel 0)

theorem stripedRingStepTimeNs_eq (order bytesByPosition : List Nat) :
    tuning.stripedRingStepTimeNs order bytesByPosition =
      if order.length ≠ bytesByPosition.length then none
      else tuning.topology.spreadTimeNs tuning.railOrder.length
        tuning.ringChannels ((maximum bytesByPosition).getD 0)
        fun rails channels load channel =>
          tuning.topology.assignChannel tuning.railOrder rails channel
            (stripedTransfers order bytesByPosition channels channel) load :=
  rfl

theorem getD_balancedSizes {bytes channels channel : Nat} (inside : channel < channels) :
    (balancedSizes bytes channels).getD channel 0 =
      share bytes channels channel := by
  rw [balancedSizes, List.getD_eq_getElem?_getD, List.getElem?_map, List.getElem?_range inside]
  rfl

theorem forall₂_zip {α β γ : Type} {related : β → γ → Prop} (keys : List α)
    {values : List β} {others : List γ}
    (paired : List.Forall₂ related values others) :
    List.Forall₂ (fun (item : α × β) (other : α × γ) =>
      item.1 = other.1 ∧ related item.2 other.2)
      (keys.zip values) (keys.zip others) := by
  induction paired generalizing keys with
  | nil =>
      rw [List.zip_nil_right, List.zip_nil_right]
      exact .nil
  | cons head _ ih =>
      cases keys with
      | nil => exact .nil
      | cons key keys => exact .cons ⟨rfl, head⟩ (ih keys)

theorem stripedTransfers_heavier {order bytes heavier : List Nat}
    (ordered : List.Forall₂ (· ≤ ·) bytes heavier) {limit channel : Nat}
    (inside : channel < channelsFor limit ((maximum bytes).getD 0)) :
    List.Forall₂ CollectiveTopology.Heavier
      (stripedTransfers order bytes (channelsFor limit ((maximum bytes).getD 0)) channel)
      (stripedTransfers order heavier
        (channelsFor limit ((maximum heavier).getD 0)) channel) := by
  have spread := maximum_mono ordered
  have below := (List.forall₂_and_left
    (p := fun less => less ≤ (maximum bytes).getD 0) bytes heavier).mpr
      ⟨fun less among => le_maximum among, ordered⟩
  rw [stripedTransfers, stripedTransfers, List.forall₂_map_left_iff, List.forall₂_map_right_iff]
  apply (forall₂_zip (ringPairs order) below).imp
  rintro ⟨pair, less⟩ ⟨_, more⟩ ⟨rfl, few, ordered⟩
  refine ⟨rfl, rfl, ?_⟩
  have within := lt_of_lt_of_le inside (channelsFor_mono limit spread)
  dsimp only
  rw [getD_balancedSizes inside, getD_balancedSizes within]
  exact share_spread_mono inside few spread ordered

theorem stripedRingStepTimeNs_beneath (order : List Nat)
    {bytes heavier : List Nat} (ordered : List.Forall₂ (· ≤ ·) bytes heavier) :
    Beneath (· ≤ ·) (tuning.stripedRingStepTimeNs order bytes)
      (tuning.stripedRingStepTimeNs order heavier) := by
  rw [stripedRingStepTimeNs_eq, stripedRingStepTimeNs_eq, ordered.length_eq]
  split
  case isTrue =>
    intro time absent
    cases absent
  case isFalse =>
    have spread := maximum_mono ordered
    apply tuning.topology.spreadTimeNs_beneath spread
    · intro rails others channel stays inside small large within
      exact tuning.topology.assignChannel_beneath stays
        (stripedTransfers_heavier ordered inside) within
    · intro rails channels channel small large later within assigned
      exact tuning.topology.assignChannel_grows within assigned

theorem ringStepTimeNsOnRail_beneath (topology : CollectiveTopology)
    (order : List Nat) {less more : Nat} (ordered : less ≤ more)
    (rail : Nat) :
    Beneath (· ≤ ·) (topology.ringStepTimeNsOnRail order less rail)
      (topology.ringStepTimeNsOnRail order more rail) := by
  unfold CollectiveTopology.ringStepTimeNsOnRail
  refine Beneath.bind (Beneath.mapM fun index _ => ?_) fun times later =>
    maximum_beneath
  cases topology.linkOnRail (order.getD index 0)
      (order.getD ((index + 1) % order.length) 0) rail with
  | none =>
      intro time absent
      cases absent
  | some link => exact Beneath.found (linkTransferTimeNs_mono ordered link)

/-- One channel of the rings, whose `bytes` go around the ring of the channel. -/
def ringChannel (bytes rails channels : Nat) (load : Load) (channel : Nat) :
    Option Load := do
  let channelBytes := share bytes channels channel
  let order := tuning.ringOrderForChannel channel
  let traffic := (ringPairs order).foldl
    (fun traffic pair => traffic.add pair.1 pair.2 channelBytes) load.traffic
  let step ← tuning.topology.ringStepTimeNsOnRail order channelBytes
    (tuning.railOrder.getD (channel % rails) 0)
  some ({ load with traffic := traffic }.addTime (channel % rails) step)

theorem multiRingStepTimeNs_eq (bytes : Nat) :
    tuning.multiRingStepTimeNs bytes = tuning.topology.spreadTimeNs tuning.railOrder.length
        tuning.ringChannels bytes (tuning.ringChannel bytes) :=
  rfl

theorem multiRingStepTimeNs_beneath {less more : Nat} (ordered : less ≤ more) :
    Beneath (· ≤ ·) (tuning.multiRingStepTimeNs less) (tuning.multiRingStepTimeNs more) := by
  rw [multiRingStepTimeNs_eq, multiRingStepTimeNs_eq]
  apply tuning.topology.spreadTimeNs_beneath ordered
  · intro rails others channel stays inside small large within
    have shares := share_spread_mono inside le_rfl ordered ordered
    unfold ringChannel
    rw [stays]
    refine Beneath.bind (ringStepTimeNsOnRail_beneath _ _ shares _) ?_
    intro time later below
    have carried := @foldl_related _ _ _ Traffic.Within _ _
      (ringPairs (tuning.ringOrderForChannel channel))
      (fun pair _ traffic heavy within => within.add shares pair.1 pair.2)
      _ _ within.traffic
    exact Beneath.found ((within.withTraffic carried).addTime below _)
  · intro rails channels channel small large later within assigned
    obtain ⟨time, -, stored⟩ := Option.bind_eq_some_iff.mp assigned
    cases stored
    have carried := List.foldlRecOn (motive := small.traffic.Within)
      (ringPairs (tuning.ringOrderForChannel channel))
      (fun heavy pair => heavy.add pair.1 pair.2 (share more channels channel)) within.traffic
      fun heavy kept pair _ => kept.grow pair.1 pair.2 _
    exact (within.growTraffic carried).growTime _ _

/-! ## Estimates -/

theorem directEstimatedTimeNs_mono (kind : CollectiveKind) {less more : Nat}
    (ordered : less ≤ more) :
    tuning.directEstimatedTimeNs kind less ≤
      tuning.directEstimatedTimeNs kind more := by
  unfold directEstimatedTimeNs
  dsimp only
  split
  case isTrue => exact le_rfl
  case isFalse =>
    apply saturate64_mono
    apply saturate128_mono
    apply Nat.add_le_add_right
    apply transferTimeNsU128_mono
    apply saturate128_mono
    apply Nat.mul_le_mul_left
    apply saturate128_mono
    apply Nat.add_le_add ordered
    cases kind with
    | allReduce | allToAll => exact ordered
    | allGather => exact saturate128_mono (Nat.mul_le_mul_right _ ordered)
    | reduceScatter => exact divCeil_mono ordered _

theorem peerEstimatedTimeNs_beneath (kind : CollectiveKind) {less more : Nat}
    (ordered : less ≤ more) :
    Beneath (· ≤ ·) (tuning.peerEstimatedTimeNs kind less)
      (tuning.peerEstimatedTimeNs kind more) := by
  have chunks := divCeil_mono ordered tuning.ringOrder.length
  have steps {small large : Nat} (fewer : small ≤ large) (count : Nat) :
      Beneath (· ≤ ·)
        ((tuning.multiRingStepTimeNs small).map fun step =>
          saturate64 (step * count))
        ((tuning.multiRingStepTimeNs large).map fun step =>
          saturate64 (step * count)) :=
    (tuning.multiRingStepTimeNs_beneath fewer).map fun step later below =>
      saturate64_mono (Nat.mul_le_mul_right count below)
  unfold peerEstimatedTimeNs
  dsimp only
  split
  case isTrue => exact Beneath.found le_rfl
  case isFalse =>
    cases kind with
    | allReduce => exact steps chunks _
    | allGather => exact steps ordered _
    | reduceScatter => exact steps chunks _
    | allToAll => exact tuning.topology.pairwiseTimeNs_beneath _ _ _ chunks

theorem localTimeNs_beneath (groups : List (List Nat)) {less more : Nat}
    (ordered : less ≤ more) (toLeader : Bool) :
    Beneath (· ≤ ·) (tuning.localTimeNs groups less toLeader)
      (tuning.localTimeNs groups more toLeader) := by
  unfold localTimeNs
  refine Beneath.bind (Beneath.mapM fun group _ => ?_) fun times later below =>
    Beneath.found (maximum_mono below)
  apply Beneath.foldlM_same _ le_rfl
  intro rank _ total later below
  have cost (source destination : Nat) :=
    tuning.topology.shortestTransferTimeNsForRail_beneath source destination ordered none
  cases toLeader with
  | true =>
      exact (cost rank _).bind fun time slower grown =>
        Beneath.found (saturate64_add_mono below grown)
  | false =>
      exact (cost _ rank).bind fun time slower grown =>
        Beneath.found (saturate64_add_mono below grown)

theorem leaderStepsNs_beneath (leaders : List Nat) {bytesAt heavier : Nat → Nat → Nat}
    (ordered : ∀ step position, bytesAt step position ≤ heavier step position) :
    Beneath (· ≤ ·) (tuning.leaderStepsNs leaders bytesAt)
      (tuning.leaderStepsNs leaders heavier) := by
  unfold leaderStepsNs
  apply Beneath.foldlM_same _ le_rfl
  intro step _ total later below
  refine Beneath.bind (tuning.stripedRingStepTimeNs_beneath leaders ?_)
    fun time slower grown => Beneath.found (saturate64_add_mono below grown)
  rw [List.forall₂_map_left_iff, List.forall₂_map_right_iff, List.forall₂_same]
  exact fun position _ => ordered step position

/-- The time that the leaders take among each other. -/
def leadersTimeNs (groups : List (List Nat)) (kind : CollectiveKind)
    (payloadBytes : Nat) : Option Nat :=
  let leaders := groups.map fun group => group.getD 0 0
  let sizeOf := fun index => (groups.getD index []).length
  match kind with
  | .allReduce => do
      let step ← tuning.stripedRingStepTimeNs leaders
        (List.replicate leaders.length (divCeil payloadBytes leaders.length))
      some (saturate64 (step * (2 * (leaders.length - 1))))
  | .reduceScatter =>
      tuning.leaderStepsNs leaders fun step position =>
        saturate64 (sizeOf ((position + leaders.length - 1 - step) % leaders.length) *
            divCeil payloadBytes tuning.ringOrder.length)
  | .allGather =>
      tuning.leaderStepsNs leaders fun step position =>
        saturate64 (sizeOf ((position + leaders.length - step) % leaders.length) * payloadBytes)
  | .allToAll => none

/-- What each leader sends to the ranks of its group. -/
def distributedBytes (kind : CollectiveKind) (payloadBytes : Nat) : Nat :=
  match kind with
  | .allGather => saturate64 (payloadBytes * tuning.ringOrder.length)
  | .reduceScatter => divCeil payloadBytes tuning.ringOrder.length
  | _ => payloadBytes

theorem hierarchicalEstimatedTimeNs_eq {groups : List (List Nat)}
    (present : tuning.hierarchyGroups = some groups) (kind : CollectiveKind)
    (payloadBytes : Nat) :
    tuning.hierarchicalEstimatedTimeNs kind payloadBytes =
      if kind = .allToAll then none
      else (do
        let gather ← tuning.localTimeNs groups payloadBytes true
        let inter ← tuning.leadersTimeNs groups kind payloadBytes
        let distribute ← tuning.localTimeNs groups
          (tuning.distributedBytes kind payloadBytes) false
        some (saturate64 (saturate64 (gather + inter) + distribute))) := by
  rw [hierarchicalEstimatedTimeNs, present]
  cases kind with
  | allReduce =>
      simp only [leadersTimeNs, bind_assoc]
      rfl
  | allGather | reduceScatter | allToAll => rfl

theorem leadersTimeNs_beneath (groups : List (List Nat))
    (kind : CollectiveKind) {less more : Nat} (ordered : less ≤ more) :
    Beneath (· ≤ ·) (tuning.leadersTimeNs groups kind less)
      (tuning.leadersTimeNs groups kind more) := by
  cases kind with
  | allReduce =>
      refine Beneath.bind (tuning.stripedRingStepTimeNs_beneath _ ?_)
        fun step later below => Beneath.found (saturate64_mono (Nat.mul_le_mul_right _ below))
      rw [List.forall₂_iff_get]
      refine ⟨by rw [List.length_replicate, List.length_replicate], ?_⟩
      intro index _ _
      rw [List.get_eq_getElem, List.get_eq_getElem, List.getElem_replicate,
        List.getElem_replicate]
      exact divCeil_mono ordered _
  | reduceScatter =>
      exact tuning.leaderStepsNs_beneath _ fun step position =>
        saturate64_mono (Nat.mul_le_mul_left _ (divCeil_mono ordered _))
  | allGather =>
      exact tuning.leaderStepsNs_beneath _ fun step position =>
        saturate64_mono (Nat.mul_le_mul_left _ ordered)
  | allToAll =>
      intro time absent
      cases absent

theorem distributedBytes_mono (kind : CollectiveKind) {less more : Nat} (ordered : less ≤ more) :
    tuning.distributedBytes kind less ≤ tuning.distributedBytes kind more := by
  cases kind with
  | allReduce | allToAll => exact ordered
  | allGather => exact saturate64_mono (Nat.mul_le_mul_right _ ordered)
  | reduceScatter => exact divCeil_mono ordered _

theorem hierarchicalEstimatedTimeNs_beneath (kind : CollectiveKind)
    {less more : Nat} (ordered : less ≤ more) :
    Beneath (· ≤ ·) (tuning.hierarchicalEstimatedTimeNs kind less)
      (tuning.hierarchicalEstimatedTimeNs kind more) := by
  cases present : tuning.hierarchyGroups with
  | none =>
      intro time found
      rw [hierarchicalEstimatedTimeNs, present] at found
      cases found
  | some groups =>
      rw [tuning.hierarchicalEstimatedTimeNs_eq present,
        tuning.hierarchicalEstimatedTimeNs_eq present]
      split
      case isTrue =>
        intro time absent
        cases absent
      case isFalse =>
        refine (tuning.localTimeNs_beneath groups ordered true).bind ?_
        intro gather laterGather gathered
        refine (tuning.leadersTimeNs_beneath groups kind ordered).bind ?_
        intro inter laterInter between
        refine (tuning.localTimeNs_beneath groups
          (tuning.distributedBytes_mono kind ordered) false).bind ?_
        intro distribute laterDistribute distributed
        exact Beneath.found (saturate64_add_mono
          (saturate64_add_mono gathered between) distributed)

/-- A larger payload is never estimated to take less time. -/
theorem plan_estimates_monotone (kind : CollectiveKind) {less more : Nat}
    (ordered : less ≤ more) :
    (tuning.plan kind less).directEstimatedTimeNs ≤
        (tuning.plan kind more).directEstimatedTimeNs ∧
      Beneath (· ≤ ·) (tuning.plan kind less).peerEstimatedTimeNs
        (tuning.plan kind more).peerEstimatedTimeNs ∧
      Beneath (· ≤ ·) (tuning.plan kind less).hierarchicalEstimatedTimeNs
        (tuning.plan kind more).hierarchicalEstimatedTimeNs :=
  ⟨tuning.directEstimatedTimeNs_mono kind ordered,
    tuning.peerEstimatedTimeNs_beneath kind ordered,
    tuning.hierarchicalEstimatedTimeNs_beneath kind ordered⟩

/-- Two ranks with two rails, on which one byte takes one channel and more bytes take
two. -/
def twoRails : CollectiveTuning where
  algorithmPolicy := .auto
  ringThresholdBytes := 0
  ringOrder := [0, 1]
  ringOrders := [[0, 1]]
  ringChannels := 2
  p2pRails := 2
  railOrderOverride := some [0, 1]
  hierarchyGroups := none
  topology :=
    { worldSize := 2
      links := [[none, some ⟨1000, 5⟩], [some ⟨1000, 5⟩, none]]
      railLinks := [[[none, some ⟨1000, 5⟩], [some ⟨1000, 5⟩, none]],
        [[none, some ⟨500, 7⟩], [some ⟨500, 7⟩, none]]]
      aggregateLinks := [[none, some 800], [some 800, none]] }
  directBandwidthMbps := 1000
  directLatencyNs := 5
  autotuneEntries := none

theorem plan_estimates_monotone_two :
    Beneath (· ≤ ·) (twoRails.plan .allGather 1).peerEstimatedTimeNs
      (twoRails.plan .allGather 2).peerEstimatedTimeNs :=
  (twoRails.plan_estimates_monotone .allGather (by decide : 1 ≤ 2)).2.1

end CollectiveTuning

end RuCCL.Rank

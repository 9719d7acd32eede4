import RuCCL.Local.ExactTensors
import RuCCL.Local.StrategiesCorrect

/-!
# What the centralized and the tree strategies compute

With exact elements every peer gets the sum of all tensors on its own device,
whatever groups a tree makes and in whatever order it comes back from its upper
part.
-/

namespace RuCCL.Local

open RuCCL.Library RuCCL.Global

variable {Tensor Device Element : Type} {B : Backend Tensor Device}
  {content : Tensor → Index → Element}

/-- Who has a tensor, and on which device. -/
def placements (B : Backend Tensor Device)
    (tensors : List (PeerId × Tensor)) : List (PeerId × Device) :=
  tensors.map fun entry => (entry.1, B.floatDevice entry.2)

theorem map_fst_placements (tensors : List (PeerId × Tensor)) :
    (placements B tensors).map Prod.fst = tensors.map Prod.fst := by
  rw [placements, List.map_map]
  rfl

/-- A list with a tensor of these entries for everyone, on the own device. -/
structure Delivered (B : Backend Tensor Device) (content : Tensor → Index → Element)
    (places : List (PeerId × Device)) (shape : List Nat)
    (entries : Index → Element) (output : List (PeerId × Tensor)) :
    Prop where
  placed : (placements B output).Perm places
  each : ∀ entry ∈ output, Holds B content entry.2 (B.floatDevice entry.2) shape entries

/-- A map with a tensor of these entries for every peer of another map, on the
device of the tensor that it has there. -/
structure Served (B : Backend Tensor Device) (content : Tensor → Index → Element)
    (devices : PeerDeviceMap Device) (shape : List Nat)
    (entries : Index → Element) (output : CollectiveTensorMap Tensor) :
    Prop where
  peers : output.keys.Perm devices.keys
  each : ∀ peer device, devices.lookup peer = some device →
    ∃ result, output.lookup peer = some result ∧ Holds B content result device shape entries

theorem Delivered.served {places : List (PeerId × Device)}
    {shape : List Nat} {entries : Index → Element}
    {output : List (PeerId × Tensor)} {devices : PeerDeviceMap Device}
    (delivered : Delivered B content places shape entries output)
    (whole : places.Perm (pairs devices)) :
    Served B content devices shape entries (collect output) := by
  have names : (output.map Prod.fst).Perm devices.keys := by
    have permuted := (delivered.placed.trans whole).map Prod.fst
    rwa [map_fst_placements, map_fst_pairs] at permuted
  have distinct : (output.map Prod.fst).Nodup := names.nodup_iff.mpr (AList.keys_nodup devices)
  refine ⟨(keys_collect_perm distinct).trans names, ?_⟩
  intro peer device found
  have among : (peer, device) ∈ placements B output :=
    (delivered.placed.trans whole).mem_iff.mpr (mem_pairs_iff.mpr found)
  obtain ⟨entry, member, same⟩ := List.mem_map.mp among
  cases same
  exact ⟨entry.2, lookup_collect_of_mem distinct member, delivered.each entry member⟩

theorem pairs_collect_perm {Value : Type} {entries : List (PeerId × Value)}
    (distinct : (entries.map Prod.fst).Nodup) :
    (pairs (collect entries)).Perm entries := by
  have nodup : (pairs (collect entries)).Nodup := by
    refine List.Nodup.of_map Prod.fst ?_
    rw [map_fst_pairs]
    exact AList.keys_nodup _
  rw [List.perm_ext_iff_of_nodup nodup (List.Nodup.of_map _ distinct)]
  rintro ⟨peer, value⟩
  rw [mem_pairs_iff]
  constructor
  · intro found
    have member : peer ∈ entries.map Prod.fst := mem_collect_iff.mp (mem_of_lookup found)
    obtain ⟨⟨other, held⟩, among, rfl⟩ := List.mem_map.mp member
    rw [lookup_collect_of_mem distinct among] at found
    cases found
    exact among
  · exact lookup_collect_of_mem distinct

theorem pairs_perm_of_lookup {Value : Type} {table : Table PeerId Value}
    {peer : PeerId} {value : Value}
    (found : table.lookup peer = some value) :
    (pairs table).Perm ((peer, value) :: pairs (table.erase peer)) := by
  have nodup : ∀ other : Table PeerId Value, (pairs other).Nodup := by
    intro other
    refine List.Nodup.of_map Prod.fst ?_
    rw [map_fst_pairs]
    exact AList.keys_nodup _
  have fresh : (peer, value) ∉ pairs (table.erase peer) := by
    rw [mem_pairs_iff, AList.lookup_erase]
    intro impossible
    cases impossible
  rw [List.perm_ext_iff_of_nodup (nodup _) (List.nodup_cons.mpr ⟨fresh, nodup _⟩)]
  rintro ⟨other, held⟩
  rw [List.mem_cons, mem_pairs_iff, mem_pairs_iff, Prod.mk.injEq]
  by_cases same : other = peer
  · subst same
    rw [found, AList.lookup_erase]
    simp [eq_comm]
  · rw [AList.lookup_erase_ne same]
    simp [same]

/-- The devices of a map of tensors are where these are. -/
theorem pairs_getPeerDevices (tensors : CollectiveTensorMap Tensor) :
    (pairs (getPeerDevices B tensors)).Perm (placements B (pairs tensors)) := by
  refine pairs_collect_perm ?_
  rw [← placements, map_fst_placements, map_fst_pairs]
  exact AList.keys_nodup tensors

theorem keys_getPeerDevices (tensors : CollectiveTensorMap Tensor) :
    (getPeerDevices B tensors).keys.Perm tensors.keys := by
  have permuted := (@pairs_getPeerDevices _ _ B tensors).map Prod.fst
  rwa [map_fst_pairs, map_fst_placements, map_fst_pairs] at permuted

theorem lookup_getPeerDevices {tensors : CollectiveTensorMap Tensor}
    {peer : PeerId} {tensor : Tensor}
    (found : tensors.lookup peer = some tensor) :
    (getPeerDevices B tensors).lookup peer = some (B.floatDevice tensor) := by
  refine mem_pairs_iff.mp ((pairs_getPeerDevices tensors).mem_iff.mpr ?_)
  exact List.mem_map.mpr ⟨(peer, tensor), mem_pairs_iff.mpr found, rfl⟩

variable [AddCommMonoid Element] {divide : Element → Nat → Element} {shape : List Nat}

section Redistribute

variable (exact : Exact B content divide)

include exact

/-- What parents have gotten is delivered to their children as well. -/
theorem Delivered.redistributed {entries : Index → Element}
    {parents : List (PeerId × Tensor)} {places : List (PeerId × Device)}
    {children : List (List (PeerId × Device))}
    (delivered : Delivered B content places shape entries parents)
    (same : parents.length = children.length) :
    Delivered B content (places ++ children.flatten) shape entries
      ((parents.zip children).flatMap fun pair =>
        redistribute B pair.1 pair.2) := by
  have kept : ∀ (parent : PeerId × Tensor) (child : PeerId × Device),
      (child.1, B.floatDevice (B.floatToDevice parent.2 child.2)) =
        id child := by
    intro parent child
    rw [(exact.toDevice parent.2 child.2).located]
    rfl
  refine ⟨?_, ?_⟩
  · have permuted := redistribute_perm_by B
      (fun entry => (entry.1, B.floatDevice entry.2)) id kept same
    rw [List.map_id_fun, List.flatMap_id] at permuted
    exact permuted.trans (delivered.placed.append_right _)
  · intro entry among
    obtain ⟨⟨parent, group⟩, paired, member⟩ := List.mem_flatMap.mp among
    have held := delivered.each parent (List.of_mem_zip paired).1
    rcases List.mem_append.mp member with below | own
    · obtain ⟨child, _, rfl⟩ := List.mem_map.mp below
      have moved := held.moved exact child.2
      dsimp only
      rw [moved.located]
      exact moved
    · rw [List.mem_singleton.mp own]
      exact held

end Redistribute

omit [AddCommMonoid Element] in
theorem Delivered.congr {places : List (PeerId × Device)}
    {entries others : Index → Element} {output : List (PeerId × Tensor)}
    (delivered : Delivered B content places shape entries output)
    (same : ∀ index, Inside shape index → entries index = others index) :
    Delivered B content places shape others output :=
  ⟨delivered.placed, fun entry among =>
    (delivered.each entry among).congr same⟩

section Groups

variable {α : Type} (tensorOf : α → Tensor)

/-- The sum of a group, on the device of its parent. -/
def groupSum (B : Backend Tensor Device) (tensorOf : α → Tensor) (group : α × List α) : Tensor :=
  sumOnto B (tensorOf group.1) (group.2.map tensorOf)

variable (exact : Exact B content divide)

include exact

theorem groupSum_holds {group : α × List α}
    (same : ∀ item ∈ group.1 :: group.2, B.shape (tensorOf item) = shape) :
    Holds B content (groupSum B tensorOf group) (B.floatDevice (tensorOf group.1)) shape
      (total content ((group.1 :: group.2).map tensorOf)) := by
  refine sumOnto_holds exact _ _ ?_
  rw [← List.map_cons]
  intro tensor among
  obtain ⟨item, member, rfl⟩ := List.mem_map.mp among
  exact same item member

theorem total_groupSums {parts : List (α × List α)}
    (same : ∀ group ∈ parts, ∀ item ∈ group.1 :: group.2,
      B.shape (tensorOf item) = shape) (index : Index)
    (inside : Inside shape index) :
    total content (parts.map (groupSum B tensorOf)) index =
      total content ((parts.flatMap fun group =>
        group.1 :: group.2).map tensorOf) index := by
  induction parts with
  | nil => rfl
  | cons group rest ih =>
      have later := ih fun other among =>
        same other (List.mem_cons_of_mem _ among)
      have own := (groupSum_holds tensorOf exact
        (same group List.mem_cons_self)).filled index inside
      rw [List.map_cons, total_cons, later, own, List.flatMap_cons, List.map_append, total_append]

/-- The groups of a list have the total of the list. -/
theorem total_grouped (arity : Nat) {items : List α}
    (same : ∀ item ∈ items, B.shape (tensorOf item) = shape)
    (index : Index) (inside : Inside shape index) :
    total content ((grouped arity items).map (groupSum B tensorOf)) index =
      total content (items.map tensorOf) index := by
  have whole := flatMap_grouped arity items
  have sums := @total_groupSums _ _ _ B content _ divide shape _ tensorOf
    exact (grouped arity items) (fun group among item member =>
      same item (by
        rw [← whole]
        exact List.mem_flatMap.mpr ⟨group, among, member⟩)) index inside
  rwa [whole] at sums

end Groups

section Trees

variable (exact : Exact B content divide)

include exact

theorem allReduceSumTreeInner_delivers {arity : Nat} (some : 1 ≤ arity)
    (fuel : Nat) {tensors : List (PeerId × Tensor)}
    (enough : tensors.length < fuel)
    (same : ∀ entry ∈ tensors, B.shape entry.2 = shape) :
    ∃ output, allReduceSumTreeInner B arity fuel tensors = .ok output ∧
      Delivered B content (placements B tensors) shape
        (total content (tensors.map Prod.snd)) output := by
  induction fuel generalizing tensors with
  | zero => cases enough
  | succ fuel ih =>
      have sameIn : ∀ group ∈ grouped arity tensors,
          ∀ item ∈ group.1 :: group.2, B.shape item.2 = shape := by
        intro group among item member
        refine same item ?_
        rw [← flatMap_grouped arity tensors]
        exact List.mem_flatMap.mpr ⟨group, among, member⟩
      have sums : ∀ group ∈ grouped arity tensors, Holds B content (groupSum B Prod.snd group)
            (B.floatDevice group.1.2) shape
            (total content ((group.1 :: group.2).map Prod.snd)) :=
        fun group among => groupSum_holds Prod.snd exact (sameIn group among)
      generalize summed : (grouped arity tensors).map (fun group =>
        (group.1.1, groupSum B Prod.snd group)) = parentTensors
      have totals : ∀ index, Inside shape index →
          total content (parentTensors.map Prod.snd) index =
            total content (tensors.map Prod.snd) index := by
        intro index inside
        rw [← summed, List.map_map]
        exact total_grouped Prod.snd exact arity same index inside
      have places : placements B parentTensors = (grouped arity tensors).map fun group =>
            (group.1.1, B.floatDevice group.1.2) := by
        rw [← summed, placements, List.map_map]
        refine List.map_congr_left fun group among => ?_
        exact congrArg (Prod.mk group.1.1) (sums group among).located
      have shapes : ∀ entry ∈ parentTensors, B.shape entry.2 = shape := by
        intro entry among
        rw [← summed] at among
        obtain ⟨group, member, rfl⟩ := List.mem_map.mp among
        exact (sums group member).shaped
      have upper : ∃ parents,
          (if 1 < parentTensors.length then
            allReduceSumTreeInner B arity fuel parentTensors
            else .ok parentTensors) = .ok parents ∧
          Delivered B content (placements B parentTensors) shape
            (total content (tensors.map Prod.snd)) parents := by
        split
        case isTrue several =>
          have fewer : parentTensors.length < fuel := by
            rw [← summed, List.length_map] at several ⊢
            have grows : (grouped arity tensors).length ≤
                tensors.length := by
              have whole := (parents_children_perm (grouped arity tensors)).length_eq
              rw [flatMap_grouped, List.length_append, List.length_map] at whole
              omega
            have shorter := length_grouped_lt some (Nat.lt_of_lt_of_le several grows)
            omega
          obtain ⟨parents, computed, delivered⟩ := ih fewer shapes
          exact ⟨parents, computed, delivered.congr totals⟩
        case isFalse single =>
          refine ⟨parentTensors, rfl, List.Perm.refl _, ?_⟩
          intro entry among
          have only : parentTensors = [entry] := by
            obtain ⟨first, rfl⟩ := List.length_eq_one_iff.mp
              (Nat.le_antisymm (Nat.not_lt.mp single) (List.length_pos_of_mem among))
            rw [List.mem_singleton.mp among]
          refine ⟨rfl, shapes entry among, fun index inside => ?_⟩
          rw [← totals index inside, only, List.map_singleton, total,
            List.map_singleton, List.sum_singleton]
      obtain ⟨parents, computed, delivered⟩ := upper
      have count : parents.length = ((grouped arity tensors).map
          fun group => group.2.map fun child =>
            (child.1, B.floatDevice child.2)).length := by
        have permuted := delivered.placed.length_eq
        rw [places] at permuted
        rw [List.length_map]
        rwa [placements, List.length_map, List.length_map] at permuted
      have lower := delivered.redistributed exact count
      refine ⟨_, ?_, ⟨?_, lower.each⟩⟩
      · rw [allReduceSumTreeInner]
        change ((if 1 < ((grouped arity tensors).map fun group =>
          (group.1.1, groupSum B Prod.snd group)).length then
            allReduceSumTreeInner B arity fuel ((grouped arity tensors).map
              fun group => (group.1.1, groupSum B Prod.snd group))
          else Except.ok ((grouped arity tensors).map fun group =>
            (group.1.1, groupSum B Prod.snd group))) >>= fun parents =>
              pairUp parents _ >>= fun matched => .ok (matched.flatMap
                fun pair => redistribute B pair.1 pair.2)) = _
        rw [summed, computed, ok_bind, pairUp_eq count, ok_bind]
      · refine lower.placed.trans ?_
        have whole := (parents_children_perm (grouped arity tensors)).map
          fun entry => (entry.1, B.floatDevice entry.2)
        rw [flatMap_grouped, List.map_append, List.map_map, List.map_flatMap] at whole
        rw [places, ← List.flatMap_def]
        exact whole.symm

theorem allReduceSumTree_serves {arity : UInt32} (some : 1 ≤ arity.toNat)
    {tensors : CollectiveTensorMap Tensor}
    (same : ∀ tensor ∈ values tensors, B.shape tensor = shape) :
    ∃ output, allReduceSumTree B tensors arity = .ok output ∧
      Served B content (getPeerDevices B tensors) shape
        (total content (values tensors)) output := by
  have sorted : (sortByDevice B (fun pair => B.floatDevice pair.2)
      (pairs tensors)).Perm (pairs tensors) := List.mergeSort_perm _ _
  have shapes : ∀ entry ∈ sortByDevice B (fun pair => B.floatDevice pair.2) (pairs tensors),
      B.shape entry.2 = shape := by
    intro entry among
    refine same entry.2 ?_
    rw [← map_snd_pairs]
    exact List.mem_map_of_mem (sorted.mem_iff.mp among)
  obtain ⟨output, computed, delivered⟩ := allReduceSumTreeInner_delivers
    exact some _ (Nat.lt_succ_self _) shapes
  refine ⟨collect output, ?_, ?_⟩
  · rw [allReduceSumTree, computed, ok_bind]
  · have totals : ∀ index, Inside shape index →
        total content ((sortByDevice B (fun pair => B.floatDevice pair.2)
          (pairs tensors)).map Prod.snd) index =
          total content (values tensors) index := by
      intro index _
      rw [← map_snd_pairs]
      exact total_perm (sorted.map Prod.snd) index
    refine (delivered.congr totals).served ?_
    exact (sorted.map _).trans (pairs_getPeerDevices tensors).symm

/-- The first entry stays the first parent. -/
theorem reduceSumTreeInner_holds {arity : Nat} (some : 1 ≤ arity)
    (fuel : Nat) {first : Tensor} {rest : List Tensor}
    (enough : (first :: rest).length ≤ fuel)
    (same : ∀ tensor ∈ first :: rest, B.shape tensor = shape) :
    ∃ sum, reduceSumTreeInner B arity fuel (first :: rest) = .ok sum ∧
      Holds B content sum (B.floatDevice first) shape (total content (first :: rest)) := by
  induction fuel generalizing first rest with
  | zero => cases enough
  | succ fuel ih =>
      have sums : ∀ group ∈ grouped arity (first :: rest),
          Holds B content (groupSum B id group) (B.floatDevice group.1)
            shape (total content ((group.1 :: group.2).map id)) := by
        intro group among
        refine groupSum_holds id exact fun item member => same item ?_
        rw [← flatMap_grouped arity (first :: rest)]
        exact List.mem_flatMap.mpr ⟨group, among, member⟩
      have totals := @total_grouped _ _ _ B content _ divide shape _ id
        exact arity (first :: rest) same
      rw [List.map_id] at totals
      have begins : grouped arity (first :: rest) = (first, rest.take arity) ::
            groups arity rest.length (rest.drop arity) := rfl
      have sumsAlike : (groupSum B id : Tensor × List Tensor → Tensor) =
          fun group => sumOnto B group.1 group.2 := by
        funext group
        rw [groupSum, List.map_id]
        rfl
      have own := sums (first, rest.take arity) (by rw [begins]; exact List.mem_cons_self)
      rw [begins, List.map_cons] at totals
      rw [reduceSumTreeInner, ← sumsAlike, begins, List.map_cons]
      cases later : (groups arity rest.length (rest.drop arity)).map (groupSum B id) with
      | nil =>
          refine ⟨_, rfl, own.located, own.shaped, fun index inside => ?_⟩
          rw [← totals index inside, later, total, List.map_singleton, List.sum_singleton]
      | cons next further =>
          rw [later] at totals
          have fewer : (groupSum B id (first, rest.take arity) ::
              next :: further).length ≤ fuel := by
            have counted : (grouped arity (first :: rest)).length =
                (next :: further).length + 1 := by
              rw [begins, List.length_cons, ← later, List.length_map]
            have several : 1 < (first :: rest).length := by
              cases rest with
              | nil => cases later
              | cons other others => exact Nat.succ_lt_succ (Nat.succ_pos _)
            have shorter := length_grouped_lt some several
            rw [List.length_cons]
            omega
          have shapes : ∀ tensor ∈ groupSum B id (first, rest.take arity) :: next :: further,
              B.shape tensor = shape := by
            intro tensor among
            rw [← later, ← List.map_cons, ← begins] at among
            obtain ⟨group, member, rfl⟩ := List.mem_map.mp among
            exact (sums group member).shaped
          obtain ⟨sum, computed, held⟩ := ih fewer shapes
          refine ⟨sum, computed, ?_⟩
          rw [own.located] at held
          exact held.congr totals

theorem reduceSumCentralized_holds {tensors : CollectiveTensorMap Tensor}
    {central : PeerId} {own : Tensor}
    (found : tensors.lookup central = some own)
    (same : ∀ tensor ∈ values tensors, B.shape tensor = shape) :
    ∃ sum, reduceSumCentralized B tensors central = .ok sum ∧
      Holds B content sum (B.floatDevice own) shape (total content (values tensors)) := by
  have permuted := values_perm_of_lookup found
  refine ⟨sumOnto B own (values (tensors.erase central)), ?_, ?_⟩
  · rw [reduceSumCentralized, found, okOr_some, ok_bind]
  · refine (sumOnto_holds exact own _ fun tensor among =>
      same tensor (permuted.mem_iff.mpr among)).congr fun index _ => ?_
    exact (total_perm permuted index).symm

theorem reduceSumTree_holds {tensors : CollectiveTensorMap Tensor} {root : PeerId} {own : Tensor}
    (found : tensors.lookup root = some own) {arity : UInt32}
    (some : 1 ≤ arity.toNat)
    (same : ∀ tensor ∈ values tensors, B.shape tensor = shape) :
    ∃ sum, reduceSumTree B tensors root arity = .ok sum ∧
      Holds B content sum (B.floatDevice own) shape (total content (values tensors)) := by
  have sorted : (own :: sortByDevice B B.floatDevice
      (values (tensors.erase root))).Perm (values tensors) :=
    ((List.mergeSort_perm _ _).cons own).trans (values_perm_of_lookup found).symm
  obtain ⟨sum, computed, held⟩ := reduceSumTreeInner_holds exact some _
    (Nat.le_refl _) fun tensor among =>
      same tensor (sorted.mem_iff.mp among)
  refine ⟨sum, ?_, held.congr fun index _ => total_perm sorted index⟩
  rw [reduceSumTree, found, okOr_some, ok_bind, computed]

section Broadcasts

variable {entries : Index → Element} {tensor : Tensor}

theorem broadcastCentralized_serves {devices : PeerDeviceMap Device}
    {central : PeerId} {device : Device}
    (found : devices.lookup central = some device)
    (held : Holds B content tensor device shape entries) :
    ∃ output, broadcastCentralized B devices central tensor = .ok output ∧
      Served B content devices shape entries output := by
  have computed : broadcastCentralized B devices central tensor =
      .ok ((collect ((pairs (devices.erase central)).map fun pair =>
        (pair.1, B.floatToDevice tensor pair.2))).insert central tensor) := by
    rw [broadcastCentralized, found, okOr_some, ok_bind]
  refine ⟨_, computed, ?_, ?_⟩
  · have served := broadcastCentralized_ends B (mem_of_lookup found) tensor
    rw [computed] at served
    rw [List.perm_ext_iff_of_nodup (AList.keys_nodup _) (AList.keys_nodup _)]
    exact served
  · intro peer target located
    by_cases same : peer = central
    · subst same
      rw [found] at located
      cases located
      exact ⟨tensor, AList.lookup_insert _, held⟩
    · rw [AList.lookup_insert_ne same]
      refine ⟨B.floatToDevice tensor target, lookup_collect_of_mem ?_ ?_, held.moved exact target⟩
      · rw [List.map_map]
        change ((pairs (devices.erase central)).map Prod.fst).Nodup
        rw [map_fst_pairs]
        exact AList.keys_nodup _
      · refine List.mem_map.mpr ⟨(peer, target), mem_pairs_iff.mpr ?_, rfl⟩
        rw [AList.lookup_erase_ne same]
        exact located

theorem broadcastTreeInner_delivers {arity : Nat} (some : 1 ≤ arity)
    (fuel : Nat) {root : PeerId × Device} {rest : List (PeerId × Device)}
    (enough : (root :: rest).length ≤ fuel)
    (held : Holds B content tensor root.2 shape entries) :
    ∃ output, broadcastTreeInner B tensor arity fuel (root :: rest) = .ok output ∧
      Delivered B content (root :: rest) shape entries output := by
  induction fuel generalizing rest with
  | zero => cases enough
  | succ fuel ih =>
      have begins : grouped arity (root :: rest) = (root, rest.take arity) ::
            groups arity rest.length (rest.drop arity) := rfl
      have upper : ∃ parents,
          broadcastTreeInner B tensor arity (fuel + 1) (root :: rest) = (do
            let matched ← pairUp ((grouped arity (root :: rest)).map Prod.snd) parents
            .ok (matched.flatMap fun pair =>
              redistribute B pair.2 pair.1)) ∧
          Delivered B content ((grouped arity (root :: rest)).map Prod.fst)
            shape entries parents := by
        cases later : groups arity rest.length (rest.drop arity) with
        | nil =>
            rw [broadcastTreeInner, begins, later]
            refine ⟨[(root.1, tensor)], rfl, ?_, ?_⟩
            · rw [placements, List.map_singleton, List.map_singleton, held.located]
            · intro entry among
              rw [List.mem_singleton.mp among]
              dsimp only
              rw [held.located]
              exact held
        | cons next further =>
            have fewer : ((grouped arity (root :: rest)).map Prod.fst).length ≤ fuel := by
              have several : 1 < (root :: rest).length := by
                cases rest with
                | nil => cases later
                | cons other others => exact Nat.succ_lt_succ (Nat.succ_pos _)
              have shorter := length_grouped_lt some several
              rw [List.length_map]
              omega
            rw [begins, later, List.map_cons] at fewer
            obtain ⟨parents, computed, delivered⟩ := ih fewer
            rw [broadcastTreeInner, begins, later]
            refine ⟨parents, ?_, delivered⟩
            exact congrArg (· >>= _) computed
      obtain ⟨parents, computed, delivered⟩ := upper
      have count : ((grouped arity (root :: rest)).map Prod.snd).length =
          parents.length := by
        have permuted := delivered.placed.length_eq
        rw [placements, List.length_map, List.length_map] at permuted
        rw [List.length_map, permuted]
      have lower := delivered.redistributed exact count.symm
      rw [← redistribute_zip_swap] at lower
      refine ⟨_, ?_, ⟨?_, lower.each⟩⟩
      · rw [computed, pairUp_eq count, ok_bind]
      · refine lower.placed.trans ?_
        have whole := parents_children_perm (grouped arity (root :: rest))
        rw [flatMap_grouped] at whole
        rw [← List.flatMap_def]
        exact whole.symm

end Broadcasts

theorem allReduceSumCentralized_serves
    {tensors : CollectiveTensorMap Tensor} (present : tensors.keys ≠ [])
    (same : ∀ tensor ∈ values tensors, B.shape tensor = shape) :
    ∃ output, allReduceSumCentralized B tensors = .ok output ∧
      Served B content (getPeerDevices B tensors) shape
        (total content (values tensors)) output := by
  obtain ⟨first, head, member⟩ := exists_head_key present
  obtain ⟨own, found⟩ := exists_lookup_of_mem member
  obtain ⟨sum, summed, held⟩ := reduceSumCentralized_holds exact found same
  obtain ⟨output, sent, served⟩ := broadcastCentralized_serves exact
    (lookup_getPeerDevices found) held
  refine ⟨output, ?_, served⟩
  rw [allReduceSumCentralized, head, okOr_some, ok_bind, summed, ok_bind, sent]

end Trees

end RuCCL.Local

import RuCCL.Local.Strategies
import Mathlib.Data.List.Perm.Basic
import Mathlib.Data.List.Zip

/-!
# Which peers a strategy serves

Whatever a strategy computes, it gives exactly the peers of its input a tensor,
and it stops early only in a tree whose recursion does not end, or in a ring of
tensors without dimensions.
-/

namespace RuCCL.Local

open RuCCL.Library RuCCL.Global

/-- The only way to stop is not to end. -/
abbrev Unended (stop : Stop) : Prop := stop = .endless

section Maps

variable {Value : Type}

theorem map_fst_pairs (table : Table PeerId Value) : (pairs table).map Prod.fst = table.keys := by
  rw [pairs, List.map_map]
  rfl

theorem map_snd_pairs (table : Table PeerId Value) :
    (pairs table).map Prod.snd = values table := by
  rw [pairs, List.map_map]
  rfl

theorem mem_foldl_insert (entries : List (PeerId × Value))
    (start : Table PeerId Value) (peer : PeerId) :
    peer ∈ entries.foldl (fun table pair => table.insert pair.1 pair.2) start ↔
      peer ∈ entries.map Prod.fst ∨ peer ∈ start := by
  induction entries generalizing start with
  | nil => simp
  | cons entry rest ih =>
      rw [List.foldl_cons, ih, AList.mem_insert, List.map_cons, List.mem_cons]
      tauto

theorem mem_collect_iff {entries : List (PeerId × Value)} {peer : PeerId} :
    peer ∈ collect entries ↔ peer ∈ entries.map Prod.fst := by
  rw [collect, mem_foldl_insert]
  exact or_iff_left (AList.notMem_empty peer)

/-- A map of distinct keys has as many entries as it was given. -/
theorem keys_collect_perm {entries : List (PeerId × Value)}
    (distinct : (entries.map Prod.fst).Nodup) :
    (collect entries).keys.Perm (entries.map Prod.fst) := by
  rw [List.perm_ext_iff_of_nodup (AList.keys_nodup _) distinct]
  intro peer
  rw [← AList.mem_keys, mem_collect_iff]

theorem values_foldl_insert_subset (entries : List (PeerId × Value))
    (start : Table PeerId Value) {value : Value}
    (member : value ∈ values (entries.foldl
      (fun table pair => table.insert pair.1 pair.2) start)) :
    value ∈ entries.map Prod.snd ∨ value ∈ values start := by
  induction entries generalizing start with
  | nil => exact Or.inr member
  | cons entry rest ih =>
      rw [List.map_cons, List.mem_cons]
      rcases ih _ member with later | now
      · exact Or.inl (Or.inr later)
      · obtain ⟨key, found⟩ := mem_values_iff.mp now
        by_cases same : key = entry.1
        · rw [same, AList.lookup_insert] at found
          exact Or.inl (Or.inl (Option.some.inj found).symm)
        · rw [AList.lookup_insert_ne same] at found
          exact Or.inr (mem_values_iff.mpr ⟨key, found⟩)

theorem mem_values_collect {entries : List (PeerId × Value)}
    {value : Value} (member : value ∈ values (collect entries)) :
    value ∈ entries.map Prod.snd := by
  rcases values_foldl_insert_subset entries ∅ member with given | absent
  · exact given
  · exact (List.not_mem_nil absent).elim

theorem lookup_foldl_insert {entries : List (PeerId × Value)}
    {start : Table PeerId Value} {peer : PeerId}
    (absent : peer ∉ entries.map Prod.fst) :
    (entries.foldl (fun table pair => table.insert pair.1 pair.2)
      start).lookup peer = start.lookup peer := by
  induction entries generalizing start with
  | nil => rfl
  | cons entry rest ih =>
      rw [List.map_cons, List.mem_cons, not_or] at absent
      rw [List.foldl_cons, ih absent.2, AList.lookup_insert_ne absent.1]

theorem lookup_foldl_insert_of_mem {entries : List (PeerId × Value)}
    {start : Table PeerId Value} {peer : PeerId} {value : Value}
    (distinct : (entries.map Prod.fst).Nodup)
    (among : (peer, value) ∈ entries) :
    (entries.foldl (fun table pair => table.insert pair.1 pair.2)
      start).lookup peer = some value := by
  induction entries generalizing start with
  | nil => cases among
  | cons entry rest ih =>
      rw [List.map_cons, List.nodup_cons] at distinct
      rcases List.mem_cons.mp among with now | later
      · cases now
        rw [List.foldl_cons, lookup_foldl_insert distinct.1, AList.lookup_insert]
      · rw [List.foldl_cons]
        exact ih distinct.2 later

theorem lookup_collect_of_mem {entries : List (PeerId × Value)} {peer : PeerId} {value : Value}
    (distinct : (entries.map Prod.fst).Nodup)
    (among : (peer, value) ∈ entries) :
    (collect entries).lookup peer = some value :=
  lookup_foldl_insert_of_mem distinct among

theorem mem_pairs_iff {table : Table PeerId Value} {peer : PeerId} {value : Value} :
    (peer, value) ∈ pairs table ↔ table.lookup peer = some value := by
  rw [pairs, List.mem_map, ← Option.mem_def, AList.mem_lookup_iff]
  constructor
  · rintro ⟨entry, member, same⟩
    cases same
    exact member
  · intro member
    exact ⟨⟨peer, value⟩, member, rfl⟩

/-- A map that has been erased at a key and given it back. -/
theorem mem_erase_or_iff {table : Table PeerId Value} {key peer : PeerId}
    (present : key ∈ table) :
    (peer = key ∨ peer ∈ (table.erase key).keys) ↔ peer ∈ table := by
  rw [← AList.mem_keys, AList.mem_erase]
  constructor
  · rintro (same | left)
    · rw [same]
      exact present
    · exact left.2
  · intro member
    by_cases same : peer = key
    · exact Or.inl same
    · exact Or.inr ⟨same, member⟩

end Maps

section Groups

variable {α β : Type}

theorem flatMap_groups (arity : Nat) (fuel : Nat) (items : List α)
    (enough : items.length ≤ fuel) :
    (groups arity fuel items).flatMap (fun group => group.1 :: group.2) =
      items := by
  induction fuel generalizing items with
  | zero =>
      rw [List.length_eq_zero_iff.mp (Nat.le_zero.mp enough)]
      rfl
  | succ fuel ih =>
      cases items with
      | nil => rfl
      | cons parent rest =>
          rw [List.length_cons] at enough
          have shorter : (rest.drop arity).length ≤ fuel := by
            rw [List.length_drop]
            omega
          rw [groups, List.flatMap_cons, ih _ shorter, List.cons_append, List.take_append_drop]

/-- The groups of a list are the list. -/
theorem flatMap_grouped (arity : Nat) (items : List α) :
    (grouped arity items).flatMap (fun group => group.1 :: group.2) =
      items :=
  flatMap_groups arity _ items (le_refl _)

theorem grouped_ne_nil {arity : Nat} {items : List α} (present : items ≠ []) :
    grouped arity items ≠ [] := by
  intro none
  have whole := flatMap_grouped arity items
  rw [none] at whole
  exact present whole.symm

/-- The parents and the children of the groups are the list, in another
order. -/
theorem parents_children_perm (parts : List (α × List α)) :
    (parts.flatMap fun group => group.1 :: group.2).Perm
      (parts.map Prod.fst ++ parts.flatMap Prod.snd) := by
  induction parts with
  | nil => exact List.Perm.refl _
  | cons group rest ih =>
      rw [List.flatMap_cons, List.map_cons, List.flatMap_cons, List.cons_append, List.cons_append]
      refine List.Perm.cons _ ?_
      refine (ih.append_left _).trans ?_
      rw [← List.append_assoc, ← List.append_assoc]
      exact List.perm_append_comm.append_right _

/-- Groups with children are fewer than what they are made of. -/
theorem length_grouped_lt {arity : Nat} (some : 1 ≤ arity)
    {items : List α} (several : 1 < items.length) :
    (grouped arity items).length < items.length := by
  cases items with
  | nil => cases several
  | cons parent rest =>
      have whole := (parents_children_perm (grouped arity (parent :: rest))).length_eq
      rw [flatMap_grouped, List.length_append, List.length_map] at whole
      have children : 0 < ((grouped arity (parent :: rest)).flatMap Prod.snd).length := by
        rw [grouped, List.length_cons, groups, List.flatMap_cons,
          List.length_append, List.length_take]
        rw [List.length_cons] at several
        omega
      omega

theorem pairUp_eq {lefts : List α} {rights : List β} (same : lefts.length = rights.length) :
    pairUp lefts rights = .ok (lefts.zip rights) := by
  induction lefts generalizing rights with
  | nil => rfl
  | cons left lefts ih =>
      cases rights with
      | nil => cases same
      | cons right rights =>
          rw [pairUp, ih (Nat.succ.inj same)]
          rfl

end Groups

section Trees

variable {Tensor Device : Type} (B : Backend Tensor Device)

theorem reduceSumTreeInner_ends (arity fuel : Nat) {tensors : List Tensor}
    (present : tensors ≠ []) :
    Ends Unended (fun _ => True) (reduceSumTreeInner B arity fuel tensors) := by
  induction fuel generalizing tensors with
  | zero => exact (rfl : Stop.endless = Stop.endless)
  | succ fuel ih =>
      have parents : (grouped arity tensors).map (fun group =>
          sumOnto B group.1 group.2) ≠ [] := fun none =>
        grouped_ne_nil present (List.map_eq_nil_iff.mp none)
      rw [reduceSumTreeInner]
      split
      case h_1 none => exact absurd none parents
      case h_2 => trivial
      case h_3 => exact ih parents

theorem reduceSumCentralized_ends {tensors : CollectiveTensorMap Tensor}
    {central : PeerId} (present : central ∈ tensors) :
    Ends Unended (fun _ => True) (reduceSumCentralized B tensors central) := by
  obtain ⟨tensor, found⟩ := exists_lookup_of_mem present
  rw [reduceSumCentralized, found, okOr_some, ok_bind]
  trivial

theorem reduceSumTree_ends {tensors : CollectiveTensorMap Tensor}
    {root : PeerId} (present : root ∈ tensors) (arity : UInt32) :
    Ends Unended (fun _ => True) (reduceSumTree B tensors root arity) := by
  obtain ⟨tensor, found⟩ := exists_lookup_of_mem present
  rw [reduceSumTree, found, okOr_some, ok_bind]
  exact reduceSumTreeInner_ends B _ _ (List.cons_ne_nil _ _)

theorem broadcastCentralized_ends {devices : PeerDeviceMap Device}
    {central : PeerId} (present : central ∈ devices) (tensor : Tensor) :
    Ends Unended (fun output => ∀ peer, peer ∈ output ↔ peer ∈ devices)
      (broadcastCentralized B devices central tensor) := by
  obtain ⟨device, found⟩ := exists_lookup_of_mem present
  rw [broadcastCentralized, found, okOr_some, ok_bind]
  intro peer
  rw [AList.mem_insert, mem_collect_iff, List.map_map,
    ← mem_erase_or_iff present, ← map_fst_pairs]
  rfl

/-- Who has a tensor after the results have gone down one level, each with a label
that a child has before and after. -/
theorem redistribute_perm_by {Label : Type}
    (label : PeerId × Tensor → Label) (childLabel : PeerId × Device → Label)
    (kept : ∀ (parent : PeerId × Tensor) (child : PeerId × Device),
      label (child.1, B.floatToDevice parent.2 child.2) = childLabel child)
    {parents : List (PeerId × Tensor)}
    {children : List (List (PeerId × Device))}
    (same : parents.length = children.length) :
    (((parents.zip children).flatMap fun pair =>
      redistribute B pair.1 pair.2).map label).Perm
      (parents.map label ++ children.flatMap (List.map childLabel)) := by
  induction parents generalizing children with
  | nil =>
      cases children with
      | nil => exact List.Perm.refl _
      | cons group rest => cases same
  | cons parent parents ih =>
      cases children with
      | nil => cases same
      | cons group rest =>
          have later := ih (Nat.succ.inj same)
          rw [List.zip_cons_cons, List.flatMap_cons, List.map_append,
            List.flatMap_cons, List.map_cons, List.cons_append]
          have own : (redistribute B parent group).map label =
              group.map childLabel ++ [label parent] := by
            rw [redistribute, List.map_append, List.map_map]
            refine congrArg (· ++ [label parent]) ?_
            exact List.map_congr_left fun child _ => kept parent child
          rw [own, List.append_assoc, List.singleton_append]
          refine List.perm_middle.trans (List.Perm.cons _ ?_)
          refine (later.append_left _).trans ?_
          rw [← List.append_assoc, ← List.append_assoc]
          exact List.perm_append_comm.append_right _

theorem redistribute_perm {parents : List (PeerId × Tensor)}
    {children : List (List (PeerId × Device))}
    (same : parents.length = children.length) :
    (((parents.zip children).flatMap fun pair =>
      redistribute B pair.1 pair.2).map Prod.fst).Perm
      (parents.map Prod.fst ++ children.flatMap (List.map Prod.fst)) :=
  redistribute_perm_by B Prod.fst Prod.fst (fun _ _ => rfl) same

/-- Groups that are walked first are paired with the same parents. -/
theorem redistribute_zip_swap (parents : List (PeerId × Tensor))
    (children : List (List (PeerId × Device))) :
    (children.zip parents).flatMap (fun pair => redistribute B pair.2 pair.1) =
      (parents.zip children).flatMap fun pair => redistribute B pair.1 pair.2 := by
  rw [← List.zip_swap, List.flatMap_map]
  rfl

theorem broadcastTreeInner_ends (tensor : Tensor) (arity fuel : Nat)
    {devices : List (PeerId × Device)} (present : devices ≠ []) :
    Ends Unended (fun output => (output.map Prod.fst).Perm (devices.map Prod.fst))
      (broadcastTreeInner B tensor arity fuel devices) := by
  induction fuel generalizing devices with
  | zero => exact (rfl : Stop.endless = Stop.endless)
  | succ fuel ih =>
      rw [broadcastTreeInner]
      refine @Ends.bind _ _ _ _ (fun (parents : List (PeerId × Tensor)) =>
        (parents.map Prod.fst).Perm
          ((grouped arity devices).map fun group => group.1.1)) _ _ _ ?_ ?_
      · split
        case h_1 none => exact absurd none (grouped_ne_nil present)
        case h_2 root children single =>
          rw [single]
          exact List.Perm.refl _
        case h_3 =>
          have parents : (grouped arity devices).map Prod.fst ≠ [] :=
            fun none => grouped_ne_nil present (List.map_eq_nil_iff.mp none)
          refine (ih parents).mono fun output reached => ?_
          rw [List.map_map] at reached
          exact reached
      · intro parents reached
        have same : ((grouped arity devices).map Prod.snd).length =
            parents.length := by
          have count := reached.length_eq
          rw [List.length_map, List.length_map] at count
          rw [List.length_map, count]
        rw [pairUp_eq same, ok_bind, redistribute_zip_swap]
        refine (redistribute_perm B same.symm).trans ?_
        refine (reached.append_right _).trans ?_
        have whole := (parents_children_perm (grouped arity devices)).map Prod.fst
        rw [flatMap_grouped, List.map_append, List.map_map, List.map_flatMap] at whole
        rw [List.flatMap_map]
        exact whole.symm

theorem broadcastTree_ends {devices : PeerDeviceMap Device}
    {root : PeerId} (present : root ∈ devices) (tensor : Tensor)
    (arity : UInt32) :
    Ends Unended (fun output => ∀ peer, peer ∈ output ↔ peer ∈ devices)
      (broadcastTree B devices root tensor arity) := by
  obtain ⟨device, found⟩ := exists_lookup_of_mem present
  rw [broadcastTree, found, okOr_some, ok_bind]
  refine Ends.bind (broadcastTreeInner_ends B tensor _ _ (List.cons_ne_nil _ _)) ?_
  intro output served peer
  rw [mem_collect_iff, served.mem_iff, List.map_cons, List.mem_cons,
    ← mem_erase_or_iff present, ← map_fst_pairs]
  have sorted : ((sortByDevice B Prod.snd (pairs (devices.erase root))).map Prod.fst).Perm
      ((pairs (devices.erase root)).map Prod.fst) :=
    (List.mergeSort_perm _ _).map Prod.fst
  rw [sorted.mem_iff]

theorem allReduceSumTreeInner_ends (arity fuel : Nat) (tensors : List (PeerId × Tensor)) :
    Ends Unended (fun output => (output.map Prod.fst).Perm (tensors.map Prod.fst))
      (allReduceSumTreeInner B arity fuel tensors) := by
  induction fuel generalizing tensors with
  | zero => exact (rfl : Stop.endless = Stop.endless)
  | succ fuel ih =>
      rw [allReduceSumTreeInner]
      refine @Ends.bind _ _ _ _ (fun (parents : List (PeerId × Tensor)) =>
        (parents.map Prod.fst).Perm
          ((grouped arity tensors).map fun group => group.1.1)) _ _ _ ?_ ?_
      · split
        case isTrue =>
          refine (ih _).mono fun output reached => ?_
          rw [List.map_map] at reached
          exact reached
        case isFalse =>
          refine List.Perm.of_eq ?_
          rw [List.map_map]
          rfl
      · intro parents reached
        have same : parents.length = ((grouped arity tensors).map
            fun group => group.2.map fun child =>
              (child.1, B.floatDevice child.2)).length := by
          have count := reached.length_eq
          rw [List.length_map, List.length_map] at count
          rw [List.length_map, count]
        rw [pairUp_eq same, ok_bind]
        refine (redistribute_perm B same).trans ?_
        refine (reached.append_right _).trans ?_
        have whole := (parents_children_perm (grouped arity tensors)).map Prod.fst
        rw [flatMap_grouped, List.map_append, List.map_map, List.map_flatMap] at whole
        simp only [List.flatMap_map, List.map_map]
        exact whole.symm

theorem allReduceSumTree_ends (tensors : CollectiveTensorMap Tensor) (arity : UInt32) :
    Ends Unended (fun output => ∀ peer, peer ∈ output ↔ peer ∈ tensors)
      (allReduceSumTree B tensors arity) := by
  rw [allReduceSumTree]
  refine Ends.bind (allReduceSumTreeInner_ends B _ _ _) ?_
  intro output served peer
  have sorted : ((sortByDevice B (fun pair => B.floatDevice pair.2)
      (pairs tensors)).map Prod.fst).Perm ((pairs tensors).map Prod.fst) :=
    (List.mergeSort_perm _ _).map Prod.fst
  rw [mem_collect_iff, served.mem_iff, sorted.mem_iff, map_fst_pairs, AList.mem_keys]

theorem mem_getPeerDevices {tensors : CollectiveTensorMap Tensor} {peer : PeerId} :
    peer ∈ getPeerDevices B tensors ↔ peer ∈ tensors := by
  rw [getPeerDevices, mem_collect_iff, List.map_map, AList.mem_keys, ← map_fst_pairs]
  rfl

/-- There is a first key. -/
theorem exists_head_key {Value : Type} {table : Table PeerId Value} (present : table.keys ≠ []) :
    ∃ first, table.keys.head? = some first ∧ first ∈ table := by
  cases keys : table.keys with
  | nil => exact absurd keys present
  | cons first rest =>
      refine ⟨first, rfl, ?_⟩
      rw [AList.mem_keys, keys]
      exact List.mem_cons_self

theorem allReduceSumCentralized_ends {tensors : CollectiveTensorMap Tensor}
    (present : tensors.keys ≠ []) :
    Ends Unended (fun output => ∀ peer, peer ∈ output ↔ peer ∈ tensors)
      (allReduceSumCentralized B tensors) := by
  obtain ⟨first, head, member⟩ := exists_head_key present
  rw [allReduceSumCentralized, head, okOr_some, ok_bind]
  refine Ends.bind (reduceSumCentralized_ends B member) ?_
  intro sum _
  refine (broadcastCentralized_ends B ((mem_getPeerDevices B).mpr member) sum).mono ?_
  intro output served peer
  rw [served, mem_getPeerDevices]

end Trees

section Rings

variable {Tensor Device : Type} (B : Backend Tensor Device)

theorem getSliceDim_foldl (dimensions : List (Nat × Nat)) (best : Nat × Nat) :
    ∃ greatest, dimensions.foldl
        (fun (greatest : Option (Nat × Nat)) dimension =>
          match greatest with
          | none => some dimension
          | some best => some (if best.1 ≤ dimension.1 then dimension else best))
        (some best) = some greatest ∧
      greatest ∈ best :: dimensions := by
  induction dimensions generalizing best with
  | nil => exact ⟨best, rfl, List.mem_cons_self⟩
  | cons dimension rest ih =>
      obtain ⟨greatest, folded, member⟩ := ih (if best.1 ≤ dimension.1 then dimension else best)
      refine ⟨greatest, folded, ?_⟩
      rcases List.mem_cons.mp member with chosen | later
      · split at chosen
        case isTrue =>
          rw [chosen]
          exact List.mem_cons_of_mem _ List.mem_cons_self
        case isFalse =>
          rw [chosen]
          exact List.mem_cons_self
      · exact List.mem_cons_of_mem _ (List.mem_cons_of_mem _ later)

/-- A shape with dimensions has a greatest one. -/
theorem getSliceDim_lt {shape : List Nat} (present : shape ≠ []) :
    ∃ sliceDim sliceDimSize, getSliceDim shape = some sliceDim ∧
      shape[sliceDim]? = some sliceDimSize := by
  cases shape with
  | nil => exact absurd rfl present
  | cons size rest =>
      obtain ⟨greatest, folded, member⟩ := getSliceDim_foldl (rest.zipIdx 1) (size, 0)
      have whole : greatest ∈ (size :: rest).zipIdx := member
      rw [List.mem_zipIdx_iff_getElem?] at whole
      refine ⟨greatest.2, greatest.1, ?_, whole⟩
      rw [getSliceDim]
      exact congrArg (Option.map Prod.snd) folded

theorem getCommonShape_eq {tensors : CollectiveTensorMap Tensor}
    {shape : List Nat} (present : tensors.keys ≠ [])
    (same : ∀ tensor ∈ values tensors, B.shape tensor = shape) :
    getCommonShape B tensors = some shape := by
  cases all : values tensors with
  | nil => exact absurd ((values_eq_nil_iff _).mp all) present
  | cons first rest =>
      rw [all] at same
      have leading := same first List.mem_cons_self
      have following : (rest.all fun tensor =>
          decide (B.shape tensor = shape)) = true := by
        rw [List.all_eq_true]
        intro tensor member
        exact decide_eq_true (same tensor (List.mem_cons_of_mem _ member))
      simp only [getCommonShape, all, leading, following, if_true]

/-- Everyone still has all slices. -/
def Sliced (ids : List PeerId) (slicedTensors : List (PeerId × List Tensor)) : Prop :=
  slicedTensors.map Prod.fst = ids ∧ ∀ entry ∈ slicedTensors, entry.2.length = ids.length

theorem ringCycle_ok {ids : List PeerId} {slicedTensors : List (PeerId × List Tensor)}
    (sliced : Sliced ids slicedTensors) (isPhaseOne : Bool) (cycle : Nat)
    {source : Nat} (within : source < ids.length) :
    ∃ next, ringCycle B isPhaseOne ids.length cycle source slicedTensors =
        .ok next ∧ Sliced ids next := by
  obtain ⟨names, complete⟩ := sliced
  have count : slicedTensors.length = ids.length := by
    rw [← names, List.length_map]
  have positive : 0 < ids.length := Nat.lt_of_le_of_lt (Nat.zero_le _) within
  -- every position of the ring is there, with every slice
  have located : ∀ position slice, position < ids.length → slice < ids.length → ∃ entry tensor,
        slicedTensors[position]? = some entry ∧
        entry.2[slice]? = some tensor ∧ entry ∈ slicedTensors := by
    intro position slice early small
    rw [← count] at early
    have member := List.getElem_mem early
    have enough := complete _ member
    exact ⟨_, _, List.getElem?_eq_getElem early,
      List.getElem?_eq_getElem (by rw [enough]; exact small), member⟩
  have sliceIndex : ∀ position, position % ids.length < ids.length :=
    fun position => Nat.mod_lt _ positive
  obtain ⟨sending, sourceSlice, found, sourceFound, _⟩ := located source
    (if isPhaseOne then (source + (ids.length - 1) * cycle) % ids.length
      else (source + 1 + (ids.length - 1) * cycle) % ids.length)
    within (by split <;> exact sliceIndex _)
  obtain ⟨receiving, destSlice, destFound, destSliceFound, member⟩ :=
    located ((source + 1) % ids.length)
      (if isPhaseOne then (source + (ids.length - 1) * cycle) % ids.length
        else (source + 1 + (ids.length - 1) * cycle) % ids.length)
      (sliceIndex _) (by split <;> exact sliceIndex _)
  simp only [ringCycle, found, okOr_some, ok_bind, sourceFound, destFound, destSliceFound]
  refine ⟨_, rfl, ?_⟩
  constructor
  · refine (List.ext_getElem? fun index => ?_).trans names
    rw [List.getElem?_map, List.getElem?_map, List.getElem?_set]
    split
    case isTrue same =>
      rw [← same, destFound]
      split
      case isTrue => rfl
      case isFalse outside =>
        rw [count] at outside
        exact absurd (sliceIndex _) outside
    case isFalse => rfl
  · intro entry among
    rcases List.mem_or_eq_of_mem_set among with old | new
    · exact complete entry old
    · rw [new, List.length_set]
      exact complete receiving member

theorem ringCycles_ok {ids : List PeerId} {slicedTensors : List (PeerId × List Tensor)}
    (sliced : Sliced ids slicedTensors) (isPhaseOne : Bool) :
    ∃ next, ringCycles B isPhaseOne slicedTensors = .ok next ∧
      Sliced ids next := by
  have count : slicedTensors.length = ids.length := by
    rw [← sliced.1, List.length_map]
  rw [ringCycles, count]
  refine foldlM_range_invariant (fun _ => Sliced ids) sliced ?_
  intro cycle state _ before
  refine foldlM_range_invariant (fun _ => Sliced ids) before ?_
  intro source state within now
  exact ringCycle_ok B now isPhaseOne cycle within

theorem sliceTensors_ok {tensors : CollectiveTensorMap Tensor}
    (present : tensors.keys ≠ []) (shape : List Nat)
    (sliceDim sliceDimSize : Nat) :
    ∃ sliced, sliceTensors B tensors shape sliceDim sliceDimSize =
        .ok sliced ∧ Sliced tensors.keys sliced := by
  have some : ¬tensors.keys.length = 0 := fun none =>
    present (List.length_eq_zero_iff.mp none)
  simp only [sliceTensors, getRingReduceSliceRanges, if_neg some, ok_bind]
  refine ⟨_, rfl, ?_, ?_⟩
  · rw [List.map_map, ← map_fst_pairs]
    rfl
  · intro entry member
    obtain ⟨pair, _, rfl⟩ := List.mem_map.mp member
    rw [List.length_map, List.length_map, List.length_range]

/-- A ring serves its peers when its tensors have the same dimensions. -/
theorem allReduceSumRing_ends {tensors : CollectiveTensorMap Tensor}
    {shape : List Nat} (present : tensors.keys ≠ [])
    (same : ∀ tensor ∈ values tensors, B.shape tensor = shape)
    (dimensions : shape ≠ []) :
    Ends Unended (fun output => ∀ peer, peer ∈ output ↔ peer ∈ tensors)
      (allReduceSumRing B tensors) := by
  obtain ⟨sliceDim, sliceDimSize, chosen, size⟩ := getSliceDim_lt dimensions
  simp only [allReduceSumRing, getCommonShape_eq B present same, okOr_some, ok_bind, chosen, size]
  split
  case isTrue => exact allReduceSumTree_ends B tensors 2
  case isFalse =>
    obtain ⟨sliced, cut, everything⟩ := sliceTensors_ok B present shape sliceDim sliceDimSize
    obtain ⟨reduced, first, reducedSliced⟩ := ringCycles_ok B everything true
    obtain ⟨gathered, second, gatheredSliced⟩ := ringCycles_ok B reducedSliced false
    rw [cut, ok_bind, first, ok_bind, second, ok_bind]
    intro peer
    rw [mem_collect_iff, List.map_map, AList.mem_keys, ← gatheredSliced.1]
    rfl

/-- The input of an all-reduce: some tensors of one shape, which a ring can
slice. -/
structure Reducible (strategy : AllReduceStrategy)
    (tensors : CollectiveTensorMap Tensor) : Prop where
  present : tensors.keys ≠ []
  shaped : ∃ shape, (∀ tensor ∈ values tensors, B.shape tensor = shape) ∧
    (strategy = .ring → shape ≠ [])

variable {B} {strategy : AllReduceStrategy} {tensors : CollectiveTensorMap Tensor}

theorem Reducible.allReduceSum_ends (reducible : Reducible B strategy tensors) :
    Ends Unended (fun output => ∀ peer, peer ∈ output ↔ peer ∈ tensors)
      (allReduceSum B strategy tensors) := by
  obtain ⟨shape, same, dimensions⟩ := reducible.shaped
  cases strategy with
  | centralized => exact allReduceSumCentralized_ends B reducible.present
  | tree arity => exact allReduceSumTree_ends B tensors arity
  | ring => exact allReduceSumRing_ends B reducible.present same (dimensions rfl)

theorem Reducible.allReduceLocalOnly_ends
    (reducible : Reducible B strategy tensors) (op : ReduceOperation) :
    Ends Unended (fun output => ∀ peer, peer ∈ output ↔ peer ∈ tensors)
      (allReduceLocalOnly B tensors op strategy) := by
  refine Ends.bind reducible.allReduceSum_ends ?_
  intro reduced served
  cases op with
  | sum => exact served
  | mean =>
      intro peer
      rw [mem_collect_iff, List.map_map, ← served, AList.mem_keys, ← map_fst_pairs]
      rfl

theorem Reducible.mainSum_ends (reducible : Reducible B strategy tensors) {mainDevice : PeerId}
    (member : mainDevice ∈ tensors) :
    Ends Unended (fun _ => True) (mainSum B strategy tensors mainDevice) := by
  obtain ⟨shape, same, dimensions⟩ := reducible.shaped
  cases strategy with
  | centralized => exact reduceSumCentralized_ends B member
  | tree arity => exact reduceSumTree_ends B member arity
  | ring =>
      refine Ends.bind (allReduceSumRing_ends B reducible.present same (dimensions rfl)) ?_
      intro output served
      obtain ⟨tensor, found⟩ := exists_lookup_of_mem ((served mainDevice).mpr member)
      rw [found]
      trivial

theorem mainBroadcast_ends {devices : PeerDeviceMap Device}
    {mainDevice : PeerId} (member : mainDevice ∈ devices) (tensor : Tensor) :
    Ends Unended (fun output => ∀ peer, peer ∈ output ↔ peer ∈ devices)
      (mainBroadcast B strategy devices mainDevice tensor) := by
  cases strategy with
  | centralized => exact broadcastCentralized_ends B member tensor
  | tree arity => exact broadcastTree_ends B member tensor arity
  | ring => exact broadcastCentralized_ends B member tensor

/-- With other nodes the result may be their error, but nobody is left out of
a success. -/
theorem Reducible.allReduceWithGlobal_ends
    (reducible : Reducible B strategy tensors) (op : ReduceOperation)
    {globalStrategy : Option AllReduceStrategy}
    (chosen : globalStrategy ≠ none)
    (allReduceGlobally : Tensor → AllReduceStrategy → ReduceOperation →
      Except GlobalCollectiveError Tensor) :
    Ends Unended
      (fun result => ∀ output, result = .ok output → ∀ peer, peer ∈ output ↔ peer ∈ tensors)
      (allReduceWithGlobal B tensors op strategy globalStrategy allReduceGlobally) := by
  obtain ⟨first, head, member⟩ := exists_head_key reducible.present
  obtain ⟨global, rfl⟩ := Option.ne_none_iff_exists'.mp chosen
  rw [allReduceWithGlobal, head, okOr_some, ok_bind]
  refine Ends.bind (reducible.mainSum_ends member) ?_
  intro sum _
  rw [okOr_some, ok_bind]
  cases allReduceGlobally sum global op with
  | error error =>
      intro output succeeded
      cases succeeded
  | ok result =>
      refine Ends.bind (mainBroadcast_ends ((mem_getPeerDevices B).mpr member) result) ?_
      intro output served final succeeded peer
      cases succeeded
      rw [served, mem_getPeerDevices]

end Rings

end RuCCL.Local

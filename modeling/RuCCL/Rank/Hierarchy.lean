import RuCCL.Library.RingOrder
import RuCCL.Library.Schedule

/-!
# Groups of ranks

A hierarchy divides all ranks into groups, each with a leader.  The leaders form a
ring; followers hand their values to their leader and take results from it.
-/

namespace RuCCL.Rank

open RuCCL.Library

/-- Only one member of a list contributes. -/
theorem flatMap_eq_of_unique {α β : Type} {part : α → List β} {single : α}
    {list : List α} (distinct : list.Nodup) (among : single ∈ list)
    (nothing : ∀ other ∈ list, other ≠ single → part other = []) :
    list.flatMap part = part single := by
  obtain ⟨before, behind, rfl⟩ := List.append_of_mem among
  rw [List.nodup_middle, List.nodup_cons, List.mem_append, not_or] at distinct
  have early : before.flatMap part = [] := by
    rw [List.flatMap_eq_nil_iff]
    intro other member
    exact nothing other (List.mem_append_left _ member) fun same => distinct.1.1 (same ▸ member)
  have late : behind.flatMap part = [] := by
    rw [List.flatMap_eq_nil_iff]
    intro other member
    exact nothing other (List.mem_append_right _ (List.mem_cons_of_mem _ member))
      fun same => distinct.1.2 (same ▸ member)
  rw [List.flatMap_append, List.flatMap_cons, early, late, List.nil_append, List.append_nil]

theorem filter_eq_flatMap {α : Type} (keep : α → Bool) (list : List α) :
    list.filter keep = list.flatMap fun entry =>
      if keep entry then [entry] else [] := by
  induction list with
  | nil => rfl
  | cons head tail ih =>
      rw [List.filter_cons, List.flatMap_cons, ih]
      split
      · rfl
      · rfl

/-- `group[0]` and `group[1..]` -/
structure RankGroup (size : Nat) where
  leader : Fin size
  followers : List (Fin size)

namespace RankGroup

variable {size : Nat}

def members (group : RankGroup size) : List (Fin size) := group.leader :: group.followers

theorem leader_mem (group : RankGroup size) : group.leader ∈ group.members := List.mem_cons_self

theorem follower_mem {group : RankGroup size} {rank : Fin size}
    (follows : rank ∈ group.followers) : rank ∈ group.members :=
  List.mem_cons_of_mem _ follows

end RankGroup

/-- Every rank belongs to one of several groups. -/
structure Hierarchy (size : Nat) where
  groups : List (RankGroup size)
  several : 2 ≤ groups.length
  partition : (groups.flatMap RankGroup.members).Perm (List.finRange size)

namespace Hierarchy

variable {size : Nat} (hierarchy : Hierarchy size)

/-- Where the group of a rank stands. -/
def groupIndex (rank : Fin size) : Nat :=
  hierarchy.groups.findIdx fun group => rank ∈ group.members

theorem exists_group (rank : Fin size) : ∃ group ∈ hierarchy.groups, rank ∈ group.members :=
  List.mem_flatMap.mp (hierarchy.partition.mem_iff.mpr (List.mem_finRange rank))

theorem groupIndex_lt (rank : Fin size) :
    hierarchy.groupIndex rank < hierarchy.groups.length := by
  obtain ⟨group, listed, inside⟩ := hierarchy.exists_group rank
  exact List.findIdx_lt_length_of_exists ⟨group, listed, decide_eq_true inside⟩

/-- `hierarchy_membership`: the group of a rank. -/
def groupOf (rank : Fin size) : RankGroup size := hierarchy.groups.get
    ⟨hierarchy.groupIndex rank, hierarchy.groupIndex_lt rank⟩

theorem groupOf_mem (rank : Fin size) : hierarchy.groupOf rank ∈ hierarchy.groups :=
  List.get_mem ..

theorem mem_groupOf (rank : Fin size) : rank ∈ (hierarchy.groupOf rank).members := by
  have found := @List.findIdx_getElem _
    (fun group : RankGroup size => decide (rank ∈ group.members))
    hierarchy.groups (hierarchy.groupIndex_lt rank)
  exact of_decide_eq_true found

theorem nodup_members : (hierarchy.groups.flatMap RankGroup.members).Nodup :=
  hierarchy.partition.nodup_iff.mpr (List.nodup_finRange size)

theorem nodup_group {group : RankGroup size}
    (listed : group ∈ hierarchy.groups) : group.members.Nodup :=
  (List.nodup_flatMap.mp hierarchy.nodup_members).1 group listed

/-- No group has more members than there are ranks. -/
theorem length_members_le {group : RankGroup size}
    (listed : group ∈ hierarchy.groups) : group.members.length ≤ size := by
  have few := (hierarchy.nodup_group listed).length_le_card
  rwa [Fintype.card_fin] at few

theorem nodup_groups : hierarchy.groups.Nodup := by
  refine (List.nodup_flatMap.mp hierarchy.nodup_members).2.imp ?_
  intro group other disjoint same
  rw [same] at disjoint
  exact disjoint other.leader_mem other.leader_mem

/-- A rank belongs to its group only. -/
theorem groupOf_eq {group : RankGroup size} (listed : group ∈ hierarchy.groups) {rank : Fin size}
    (inside : rank ∈ group.members) : hierarchy.groupOf rank = group := by
  by_contra different
  have symmetric : Std.Symm (Function.onFun List.Disjoint (@RankGroup.members size)) :=
    ⟨fun _ _ apart => List.Disjoint.symm apart⟩
  have apart := (List.nodup_flatMap.mp hierarchy.nodup_members).2.forall
    (hierarchy.groupOf_mem rank) listed different
  exact apart (hierarchy.mem_groupOf rank) inside

theorem groupOf_leader {group : RankGroup size} (listed : group ∈ hierarchy.groups) :
    hierarchy.groupOf group.leader = group :=
  hierarchy.groupOf_eq listed group.leader_mem

instance : NeZero hierarchy.groups.length :=
  ⟨Nat.ne_of_gt (lt_of_lt_of_le Nat.zero_lt_two hierarchy.several)⟩

/-- The leaders in the order of their groups. -/
def leaders : RingOrder (Fin size) hierarchy.groups.length where
  members := hierarchy.groups.map RankGroup.leader
  length_members := List.length_map _
  nodup := by
    refine (List.nodup_map_iff_inj_on hierarchy.nodup_groups).mpr ?_
    intro group listed other otherListed same
    rw [← hierarchy.groupOf_leader listed, same, hierarchy.groupOf_leader otherListed]

/-- The rank leads its group. -/
def Leads (rank : Fin size) : Prop := (hierarchy.groupOf rank).leader = rank

instance (rank : Fin size) : Decidable (hierarchy.Leads rank) :=
  inferInstanceAs (Decidable ((hierarchy.groupOf rank).leader = rank))

/-- Some leader has followers. -/
def Shared : Prop := ∃ group ∈ hierarchy.groups, group.followers ≠ []

theorem mem_leaders (rank : Fin size) :
    rank ∈ hierarchy.leaders.members ↔ hierarchy.Leads rank := by
  constructor
  · intro member
    obtain ⟨group, listed, rfl⟩ := List.mem_map.mp member
    rw [Leads, hierarchy.groupOf_leader listed]
  · intro leads
    exact List.mem_map.mpr ⟨_, hierarchy.groupOf_mem rank, leads⟩

theorem follows_of_not_leads {rank : Fin size} (follows : ¬hierarchy.Leads rank) :
    rank ∈ (hierarchy.groupOf rank).followers := by
  rcases List.mem_cons.mp (hierarchy.mem_groupOf rank) with leads | member
  · exact absurd leads.symm follows
  · exact member

theorem not_leads_of_follows {group : RankGroup size}
    (listed : group ∈ hierarchy.groups) {rank : Fin size}
    (follows : rank ∈ group.followers) : ¬hierarchy.Leads rank := by
  rw [Leads, hierarchy.groupOf_eq listed (RankGroup.follower_mem follows)]
  intro leads
  have distinct := List.nodup_cons.mp (hierarchy.nodup_group listed)
  rw [leads] at distinct
  exact distinct.1 follows

/-- A leader stands among the leaders where its group stands. -/
theorem position_leader {rank : Fin size} (leads : hierarchy.Leads rank) :
    hierarchy.leaders.position rank = hierarchy.groupIndex rank := by
  have inside : hierarchy.groupIndex rank <
      hierarchy.leaders.members.length := by
    rw [hierarchy.leaders.length_members]
    exact hierarchy.groupIndex_lt rank
  have located : hierarchy.leaders.members[hierarchy.groupIndex rank] =
      rank := by
    simp only [leaders, List.getElem_map]
    exact leads
  have index := hierarchy.leaders.nodup.idxOf_getElem (hierarchy.groupIndex rank) inside
  rwa [located] at index

/-- The leaders stand in the order of their groups. -/
theorem position_groupLeader (rank : Fin size) :
    hierarchy.leaders.position (hierarchy.groupOf rank).leader =
      hierarchy.groupIndex rank := by
  have bounded : hierarchy.groupIndex rank <
      hierarchy.leaders.members.length := by
    rw [hierarchy.leaders.length_members]
    exact hierarchy.groupIndex_lt rank
  have same : hierarchy.leaders.members[hierarchy.groupIndex rank] =
      (hierarchy.groupOf rank).leader :=
    List.getElem_map _
  have place := hierarchy.leaders.nodup.idxOf_getElem _ bounded
  rw [same] at place
  exact place

section Handovers

variable {β μ σ ε : Type}

/-- One handover for every follower of every group. -/
def handovers (handover : RankGroup size → Fin size →
    Handover (Fin size) β μ σ ε) : List (Handover (Fin size) β μ σ ε) :=
  hierarchy.groups.flatMap fun group => group.followers.map (handover group)

variable {handover : RankGroup size → Fin size → Handover (Fin size) β μ σ ε}

theorem mem_handovers {other : Handover (Fin size) β μ σ ε}
    (member : other ∈ hierarchy.handovers handover) :
    ∃ group ∈ hierarchy.groups, ∃ rank ∈ group.followers, other = handover group rank := by
  obtain ⟨group, listed, inside⟩ := List.mem_flatMap.mp member
  obtain ⟨rank, follows, same⟩ := List.mem_map.mp inside
  exact ⟨group, listed, rank, follows, same.symm⟩

/-- What concerns one rank lies in its group. -/
theorem flatMap_handovers {α : Type} (rank : Fin size)
    (select : Handover (Fin size) β μ σ ε → List α)
    (kept : ∀ group ∈ hierarchy.groups, ∀ follower ∈ group.followers,
      rank ∉ group.members → select (handover group follower) = []) :
    (hierarchy.handovers handover).flatMap select =
      (hierarchy.groupOf rank).followers.flatMap fun follower =>
        select (handover (hierarchy.groupOf rank) follower) := by
  rw [handovers, List.flatMap_assoc]
  simp only [List.flatMap_map]
  refine flatMap_eq_of_unique hierarchy.nodup_groups (hierarchy.groupOf_mem rank) ?_
  intro group listed other
  rw [List.flatMap_eq_nil_iff]
  intro follower follows
  refine kept group listed follower follows fun inside => ?_
  exact other (hierarchy.groupOf_eq listed inside).symm

/-- What concerns one follower is its handover. -/
theorem flatMap_handovers_follower {α : Type} {rank : Fin size} (follows : ¬hierarchy.Leads rank)
    (select : Handover (Fin size) β μ σ ε → List α)
    (kept : ∀ group ∈ hierarchy.groups, ∀ follower ∈ group.followers,
      rank ≠ follower → rank ≠ group.leader → select (handover group follower) = []) :
    (hierarchy.handovers handover).flatMap select =
      select (handover (hierarchy.groupOf rank) rank) := by
  rw [hierarchy.flatMap_handovers rank select]
  · have distinct := (List.nodup_cons.mp (hierarchy.nodup_group (hierarchy.groupOf_mem rank))).2
    refine @flatMap_eq_of_unique _ _ (fun follower =>
      select (handover (hierarchy.groupOf rank) follower)) _ _ distinct
      (hierarchy.follows_of_not_leads follows) ?_
    intro follower among other
    exact kept _ (hierarchy.groupOf_mem rank) follower among (Ne.symm other) (Ne.symm follows)
  · intro group listed follower among absent
    refine kept group listed follower among ?_ ?_
    · rintro rfl
      exact absent (RankGroup.follower_mem among)
    · rintro rfl
      exact absent group.leader_mem

/-- What concerns a leader are the handovers of its followers. -/
theorem flatMap_handovers_leader {α : Type} {rank : Fin size} (leads : hierarchy.Leads rank)
    (select : Handover (Fin size) β μ σ ε → List α)
    (kept : ∀ group ∈ hierarchy.groups, ∀ follower ∈ group.followers,
      rank ≠ follower → rank ≠ group.leader → select (handover group follower) = []) :
    (hierarchy.handovers handover).flatMap select =
      (hierarchy.groupOf rank).followers.flatMap fun follower =>
        select (handover (hierarchy.groupOf rank) follower) := by
  apply hierarchy.flatMap_handovers rank select
  intro group listed follower among absent
  refine kept group listed follower among ?_ ?_
  · rintro rfl
    exact absent (RankGroup.follower_mem among)
  · rintro rfl
    exact absent group.leader_mem

section Collecting

/-- Every follower hands over to its leader. -/
structure Collects (handover : RankGroup size → Fin size →
    Handover (Fin size) β μ σ ε) : Prop where
  source : ∀ group rank, (handover group rank).source = rank
  target : ∀ group rank, (handover group rank).target = group.leader

variable {hierarchy} (collects : Collects handover)

include collects

theorem Collects.apart :
    ∀ one ∈ hierarchy.handovers handover,
      ∀ other ∈ hierarchy.handovers handover, one.source ≠ other.target := by
  intro one member other otherMember same
  obtain ⟨group, listed, rank, follows, rfl⟩ := hierarchy.mem_handovers member
  obtain ⟨another, otherListed, _, _, rfl⟩ := hierarchy.mem_handovers otherMember
  rw [collects.source, collects.target] at same
  apply hierarchy.not_leads_of_follows listed follows
  rw [Leads, same, hierarchy.groupOf_leader otherListed]

/-- A leader takes from its followers, in their order. -/
theorem Collects.thread_leader {rank : Fin size} (leads : hierarchy.Leads rank) :
    Handover.thread (hierarchy.handovers handover) rank =
      (hierarchy.groupOf rank).followers.map fun follower =>
        .receive (handover (hierarchy.groupOf rank) follower).box
          (handover (hierarchy.groupOf rank) follower).accept := by
  rw [Handover.thread, List.filterMap_eq_flatMap_toList,
    hierarchy.flatMap_handovers_leader leads, List.map_eq_flatMap]
  · refine List.flatMap_congr fun follower follows => ?_
    have other : rank ≠ follower := by
      rintro rfl
      exact hierarchy.not_leads_of_follows (hierarchy.groupOf_mem rank) follows leads
    rw [Handover.instruction, collects.source, collects.target, if_neg other, if_pos leads.symm]
    rfl
  · intro group _ follower _ other notLeader
    rw [Handover.instruction, collects.source, collects.target, if_neg other, if_neg notLeader]
    rfl

theorem Collects.thread_follower {rank : Fin size} (follows : ¬hierarchy.Leads rank) :
    Handover.thread (hierarchy.handovers handover) rank =
      [.send (handover (hierarchy.groupOf rank) rank).box
        (handover (hierarchy.groupOf rank) rank).message] := by
  rw [Handover.thread, List.filterMap_eq_flatMap_toList,
    hierarchy.flatMap_handovers_follower follows]
  · rw [Handover.instruction, collects.source, if_pos rfl]
    rfl
  · intro group _ follower _ other notLeader
    rw [Handover.instruction, collects.source, collects.target, if_neg other, if_neg notLeader]
    rfl

theorem Collects.outcome_leader
    {effect : Handover (Fin size) β μ σ ε → σ → σ} {before : Fin size → σ}
    {rank : Fin size} (leads : hierarchy.Leads rank) :
    Handover.outcome effect (hierarchy.handovers handover) before rank =
      (hierarchy.groupOf rank).followers.foldl
        (fun memory follower =>
          effect (handover (hierarchy.groupOf rank) follower) memory)
        (before rank) := by
  rw [Handover.outcome, filter_eq_flatMap, hierarchy.flatMap_handovers_leader leads]
  · have all : ((hierarchy.groupOf rank).followers.flatMap fun follower =>
        if decide ((handover (hierarchy.groupOf rank) follower).target =
          rank) then [handover (hierarchy.groupOf rank) follower]
        else []) =
        (hierarchy.groupOf rank).followers.map (handover (hierarchy.groupOf rank)) := by
      rw [List.map_eq_flatMap]
      refine List.flatMap_congr fun follower _ => ?_
      have same : (hierarchy.groupOf rank).leader = rank := leads
      rw [collects.target, if_pos (decide_eq_true same)]
    rw [all, List.foldl_map]
  · intro group _ follower _ _ notLeader
    rw [collects.target, if_neg]
    simpa using Ne.symm notLeader

theorem Collects.outcome_follower
    {effect : Handover (Fin size) β μ σ ε → σ → σ} {before : Fin size → σ}
    {rank : Fin size} (follows : ¬hierarchy.Leads rank) :
    Handover.outcome effect (hierarchy.handovers handover) before rank =
      before rank := by
  have none : (hierarchy.handovers handover).filter
      (fun other => decide (other.target = rank)) = [] := by
    rw [List.filter_eq_nil_iff]
    intro other member
    obtain ⟨group, listed, follower, _, rfl⟩ := hierarchy.mem_handovers member
    rw [collects.target, decide_eq_true_iff]
    rintro rfl
    exact follows (congrArg RankGroup.leader (hierarchy.groupOf_leader listed))
  rw [Handover.outcome, none, List.foldl_nil]

end Collecting

section Spreading

/-- Every leader hands over to its followers. -/
structure Spreads (handover : RankGroup size → Fin size →
    Handover (Fin size) β μ σ ε) : Prop where
  source : ∀ group rank, (handover group rank).source = group.leader
  target : ∀ group rank, (handover group rank).target = rank

variable {hierarchy} (spreads : Spreads handover)

include spreads

theorem Spreads.apart :
    ∀ one ∈ hierarchy.handovers handover,
      ∀ other ∈ hierarchy.handovers handover, one.source ≠ other.target := by
  intro one member other otherMember same
  obtain ⟨group, listed, _, _, rfl⟩ := hierarchy.mem_handovers member
  obtain ⟨another, otherListed, rank, follows, rfl⟩ := hierarchy.mem_handovers otherMember
  rw [spreads.source, spreads.target] at same
  apply hierarchy.not_leads_of_follows otherListed follows
  rw [Leads, ← same, hierarchy.groupOf_leader listed]

/-- A leader hands over to its followers, in their order. -/
theorem Spreads.thread_leader {rank : Fin size} (leads : hierarchy.Leads rank) :
    Handover.thread (hierarchy.handovers handover) rank =
      (hierarchy.groupOf rank).followers.map fun follower =>
        .send (handover (hierarchy.groupOf rank) follower).box
          (handover (hierarchy.groupOf rank) follower).message := by
  rw [Handover.thread, List.filterMap_eq_flatMap_toList,
    hierarchy.flatMap_handovers_leader leads, List.map_eq_flatMap]
  · refine List.flatMap_congr fun follower _ => ?_
    rw [Handover.instruction, spreads.source, if_pos leads.symm]
    rfl
  · intro group _ follower _ other notLeader
    rw [Handover.instruction, spreads.source, spreads.target, if_neg notLeader, if_neg other]
    rfl

theorem Spreads.thread_follower {rank : Fin size} (follows : ¬hierarchy.Leads rank) :
    Handover.thread (hierarchy.handovers handover) rank =
      [.receive (handover (hierarchy.groupOf rank) rank).box
        (handover (hierarchy.groupOf rank) rank).accept] := by
  rw [Handover.thread, List.filterMap_eq_flatMap_toList,
    hierarchy.flatMap_handovers_follower follows]
  · rw [Handover.instruction, spreads.source, spreads.target,
      if_neg (Ne.symm follows), if_pos rfl]
    rfl
  · intro group _ follower _ other notLeader
    rw [Handover.instruction, spreads.source, spreads.target, if_neg notLeader, if_neg other]
    rfl

theorem Spreads.outcome_leader
    {effect : Handover (Fin size) β μ σ ε → σ → σ} {before : Fin size → σ}
    {rank : Fin size} (leads : hierarchy.Leads rank) :
    Handover.outcome effect (hierarchy.handovers handover) before rank =
      before rank := by
  have none : (hierarchy.handovers handover).filter
      (fun other => decide (other.target = rank)) = [] := by
    rw [List.filter_eq_nil_iff]
    intro other member
    obtain ⟨group, listed, follower, follows, rfl⟩ := hierarchy.mem_handovers member
    rw [spreads.target, decide_eq_true_iff]
    rintro rfl
    exact hierarchy.not_leads_of_follows listed follows leads
  rw [Handover.outcome, none, List.foldl_nil]

theorem Spreads.outcome_follower
    {effect : Handover (Fin size) β μ σ ε → σ → σ} {before : Fin size → σ}
    {rank : Fin size} (follows : ¬hierarchy.Leads rank) :
    Handover.outcome effect (hierarchy.handovers handover) before rank =
      effect (handover (hierarchy.groupOf rank) rank) (before rank) := by
  rw [Handover.outcome, filter_eq_flatMap, hierarchy.flatMap_handovers_follower follows]
  · rw [spreads.target, if_pos (decide_eq_true rfl)]
    rfl
  · intro group _ follower _ other _
    rw [spreads.target, if_neg]
    simpa using Ne.symm other

end Spreading

end Handovers

end Hierarchy

end RuCCL.Rank

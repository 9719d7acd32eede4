import RuCCL.Library.Network

/-!
# Runs of fork-join programs

Schedules that take a network from one quiet state, in which all boxes are
empty, to the next: all participants of a group send and then all of them
receive, they meet at the hub, they join their threads, or messages are handed
over one by one.
-/

namespace RuCCL.Library

section Schedule

variable {ρ β μ σ ε : Type} [DecidableEq ρ] [DecidableEq β]

/-- Nothing is under way. -/
def quiet (rest : ρ → Program β μ σ ε) (memory : ρ → σ) :
    Network ρ β μ σ ε where
  rest := rest
  store := { memory := memory, queues := fun _ => [] }

/-- New values for some participants. -/
def overlay {α : Type} (ranks : List ρ) (new old : ρ → α) : ρ → α :=
  fun rank => if rank ∈ ranks then new rank else old rank

/-- Every participant of a group has one message in its box. -/
def posted (owner : β → ρ) (box : ρ → β) (content : ρ → μ) (ranks : List ρ) : β → List μ :=
  fun target =>
    if owner target ∈ ranks ∧ box (owner target) = target then
      [content (owner target)]
    else []

omit [DecidableEq β] in
theorem overlay_nil {α : Type} (new old : ρ → α) : overlay [] new old = old := by
  funext rank
  simp [overlay]

omit [DecidableEq β] in
theorem overlay_cons {α : Type} (rank : ρ) (ranks : List ρ) (new old : ρ → α) :
    overlay (rank :: ranks) new old =
      Function.update (overlay ranks new old) rank (new rank) := by
  funext other
  by_cases same : other = rank
  · subst same
    simp [overlay]
  · simp [overlay, same]

omit [DecidableEq β] in
theorem overlay_of_mem {α : Type} {rank : ρ} {ranks : List ρ}
    {new old : ρ → α} (member : rank ∈ ranks) :
    overlay ranks new old rank = new rank :=
  if_pos member

omit [DecidableEq β] in
theorem overlay_of_not_mem {α : Type} {rank : ρ} {ranks : List ρ}
    {new old : ρ → α} (absent : rank ∉ ranks) :
    overlay ranks new old rank = old rank :=
  if_neg absent

omit [DecidableEq β] in
theorem overlay_reverse {α : Type} (ranks : List ρ) (new old : ρ → α) :
    overlay (ranks.reverse ++ []) new old = overlay ranks new old := by
  funext rank
  simp [overlay]

theorem posted_nil (owner : β → ρ) (box : ρ → β) (content : ρ → μ) :
    posted owner box content [] = fun _ => [] := by
  funext target
  simp [posted]

theorem posted_cons {owner : β → ρ} {box : ρ → β} {content : ρ → μ} {rank : ρ}
    {ranks : List ρ} (owned : owner (box rank) = rank) :
    posted owner box content (rank :: ranks) =
      Function.update (posted owner box content ranks) (box rank) [content rank] := by
  funext target
  by_cases same : target = box rank
  · subst same
    simp [posted, owned]
  · rw [Function.update_of_ne same]
    have other : ¬(owner target = rank ∧ box (owner target) = target) := by
      intro ⟨here, there⟩
      rw [here] at there
      exact same there.symm
    simp only [posted, List.mem_cons]
    by_cases here : owner target = rank
    · have elsewhere : ¬box rank = target := fun equal => same equal.symm
      simp [here, elsewhere]
    · simp [here]

theorem posted_self_of_not_mem {owner : β → ρ} {box : ρ → β} {content : ρ → μ} {rank : ρ}
    {ranks : List ρ} (owned : owner (box rank) = rank)
    (absent : rank ∉ ranks) :
    posted owner box content ranks (box rank) = [] := by
  simp [posted, owned, absent]

theorem posted_reverse (owner : β → ρ) (box : ρ → β) (content : ρ → μ) (ranks : List ρ) :
    posted owner box content (ranks.reverse ++ []) =
      posted owner box content ranks := by
  funext target
  simp [posted]

omit [DecidableEq ρ] [DecidableEq β] in
/-- One action after the other, each for its own participant. -/
theorem Run.sweep {τ α : Type} {step : τ → α → Option (Except ε τ)} {act : ρ → α}
    {after : List ρ → τ} (pending : List ρ) :
    ∀ done, pending.Nodup → (∀ rank ∈ pending, rank ∉ done) →
      (∀ rank ∈ pending, ∀ finished, rank ∉ finished → step (after finished) (act rank) =
          some (.ok (after (rank :: finished)))) →
      Run step pending.length (after done) (after (pending.reverse ++ done)) := by
  induction pending with
  | nil =>
      intro done _ _ _
      exact .none
  | cons rank rest ih =>
      intro done distinct fresh each
      obtain ⟨absent, restDistinct⟩ := List.nodup_cons.mp distinct
      rw [List.reverse_cons, List.append_assoc]
      refine .next (each rank List.mem_cons_self done (fresh rank List.mem_cons_self)) ?_
      apply ih (rank :: done) restDistinct
      · intro other member
        rw [List.mem_cons]
        intro either
        rcases either with same | before
        · rw [same] at member
          exact absent member
        · exact fresh other (List.mem_cons_of_mem rank member) before
      · intro other member
        exact each other (List.mem_cons_of_mem rank member)

/-- A thread of the current phase takes its next instruction. -/
def Advances (thread : Nat) (instruction : Instruction β μ σ ε)
    (before after : Program β μ σ ε) : Prop :=
  ∃ phase later rest, before = phase :: later ∧ phase[thread]? = some (instruction :: rest) ∧
    after = phase.set thread rest :: later

section Sweeps

variable {hub : Hub β μ ε} {sender receiver : β → ρ}
variable {ranks : List ρ} {thread : Nat}
variable {rest rest' : ρ → Program β μ σ ε} {memory memory' : ρ → σ}

/-- A group of participants sends. -/
theorem Run.sends {outbox : ρ → β} {message : ρ → σ → Except ε μ} {sent : ρ → μ}
    (distinct : ranks.Nodup)
    (advances : ∀ rank ∈ ranks, Advances thread (.send (outbox rank) (message rank)) (rest rank)
        (rest' rank))
    (ready : ∀ rank ∈ ranks, message rank (memory rank) = .ok (sent rank))
    (owned : ∀ rank ∈ ranks, sender (outbox rank) = rank) :
    Run (networkStep hub) ranks.length (quiet rest memory)
      { rest := overlay ranks rest' rest
        store := {
          memory := memory
          queues := posted sender outbox sent ranks } } := by
  have swept := @Run.sweep ρ ε (Network ρ β μ σ ε) _ (networkStep hub)
    (fun rank => .run rank thread)
    (fun done => {
      rest := overlay done rest' rest
      store := {
        memory := memory
        queues := posted sender outbox sent done } }) ranks [] distinct
    (by simp)
  simp only [overlay_nil, posted_nil, overlay_reverse, posted_reverse] at swept
  apply swept
  intro rank member finished absent
  obtain ⟨phase, later, tail, program, located, same⟩ := advances rank member
  refine run_eq.mpr ⟨phase, later, _, tail, _, ?_, located,
    perform_send_eq.mpr ⟨sent rank, ready rank member, rfl⟩, ?_⟩
  · exact (overlay_of_not_mem absent).trans program
  · dsimp only
    rw [overlay_cons, same, posted_cons (owned rank member),
      posted_self_of_not_mem (owned rank member) absent]
    rfl

omit [DecidableEq β] in
theorem filter_finished (ranks : List ρ) :
    ranks.filter (fun rank => decide (rank ∉ ranks.reverse ++ [])) = [] := by
  rw [List.filter_eq_nil_iff]
  intro rank member
  simp [member]

theorem posted_taken {box : ρ → β} {content : ρ → μ} {rank : ρ} {done : List ρ}
    (owned : receiver (box rank) = rank) :
    posted receiver box content (ranks.filter fun other => decide (other ∉ rank :: done)) =
      Function.update
        (posted receiver box content (ranks.filter fun other => decide (other ∉ done)))
        (box rank) [] := by
  funext target
  by_cases same : target = box rank
  · subst same
    simp [posted, owned]
  · rw [Function.update_of_ne same]
    by_cases here : receiver target = rank
    · have elsewhere : ¬box rank = target := fun equal => same equal.symm
      simp [posted, here, elsewhere]
    · simp [posted, here]

/-- A group of participants receives what is in their boxes. -/
theorem Run.receives {inbox : ρ → β} {accept : ρ → μ → σ → Except ε σ} {inbound : ρ → μ}
    (distinct : ranks.Nodup)
    (advances : ∀ rank ∈ ranks, Advances thread (.receive (inbox rank) (accept rank)) (rest rank)
        (rest' rank))
    (accepted : ∀ rank ∈ ranks, accept rank (inbound rank) (memory rank) = .ok (memory' rank))
    (owned : ∀ rank ∈ ranks, receiver (inbox rank) = rank) :
    Run (networkStep hub) ranks.length
      { rest := rest
        store := {
          memory := memory
          queues := posted receiver inbox inbound ranks } }
      (quiet (overlay ranks rest' rest) (overlay ranks memory' memory)) := by
  have swept := @Run.sweep ρ ε (Network ρ β μ σ ε) _ (networkStep hub)
    (fun rank => .run rank thread)
    (fun done => {
      rest := overlay done rest' rest
      store := {
        memory := overlay done memory' memory
        queues := posted receiver inbox inbound
          (ranks.filter fun rank => decide (rank ∉ done)) } }) ranks []
    distinct (by simp)
  simp only [overlay_nil, overlay_reverse, filter_finished, posted_nil,
    List.not_mem_nil, not_false_eq_true, decide_true, List.filter_true]
    at swept
  apply swept
  intro rank member finished absent
  obtain ⟨phase, later, tail, program, located, same⟩ := advances rank member
  refine run_eq.mpr ⟨phase, later, _, tail, _, ?_, located,
    perform_receive_eq.mpr ⟨inbound rank, [], memory' rank, ?_, ?_, rfl⟩, ?_⟩
  · exact (overlay_of_not_mem absent).trans program
  · simp [posted, owned rank member, member, absent]
  · dsimp only
    rw [overlay_of_not_mem absent]
    exact accepted rank member
  · dsimp only
    rw [overlay_cons, overlay_cons, same, posted_taken (owned rank member)]

/-- A group of participants joins its threads. -/
theorem Run.joins (distinct : ranks.Nodup)
    (finished : ∀ rank ∈ ranks, ∃ phase, rest rank = phase :: rest' rank ∧
      phase.all List.isEmpty = true) :
    Run (networkStep hub) ranks.length (quiet rest memory)
      (quiet (overlay ranks rest' rest) memory) := by
  have swept := @Run.sweep ρ ε (Network ρ β μ σ ε) _ (networkStep hub) (fun rank => .join rank)
    (fun done => quiet (overlay done rest' rest) memory) ranks [] distinct
    (by simp)
  simp only [overlay_nil, overlay_reverse] at swept
  apply swept
  intro rank member done absent
  obtain ⟨phase, program, empty⟩ := finished rank member
  refine join_eq.mpr ⟨phase, rest' rank, ?_, empty, ?_⟩
  · exact (overlay_of_not_mem absent).trans program
  · rw [overlay_cons]
    rfl

/-- A group of participants computes. -/
theorem Run.computes {change : ρ → σ → Except ε σ} (distinct : ranks.Nodup)
    (advances : ∀ rank ∈ ranks, Advances thread (.compute (change rank)) (rest rank) (rest' rank))
    (changed : ∀ rank ∈ ranks,
      change rank (memory rank) = .ok (memory' rank)) :
    Run (networkStep hub) ranks.length (quiet rest memory)
      (quiet (overlay ranks rest' rest) (overlay ranks memory' memory)) := by
  have swept := @Run.sweep ρ ε (Network ρ β μ σ ε) _ (networkStep hub)
    (fun rank => .run rank thread)
    (fun done => quiet (overlay done rest' rest)
      (overlay done memory' memory)) ranks [] distinct (by simp)
  simp only [overlay_nil, overlay_reverse] at swept
  apply swept
  intro rank member finished absent
  obtain ⟨phase, later, tail, program, located, same⟩ := advances rank member
  refine run_eq.mpr ⟨phase, later, _, tail, _, ?_, located,
    perform_compute_eq.mpr ⟨memory' rank, ?_, rfl⟩, ?_⟩
  · exact (overlay_of_not_mem absent).trans program
  · dsimp only [quiet]
    rw [overlay_of_not_mem absent]
    exact changed rank member
  · rw [overlay_cons, overlay_cons, same]
    rfl

end Sweeps

/-- Every participant of a group sends one message and receives one from another
participant of the group. -/
structure Round (ρ β μ σ ε : Type) where
  outbox : ρ → β
  source : ρ → ρ
  message : ρ → σ → Except ε μ
  accept : ρ → μ → σ → Except ε σ

namespace Round

def instructions (round : Round ρ β μ σ ε) (rank : ρ) : Thread β μ σ ε :=
  [.send (round.outbox rank) (round.message rank),
    .receive (round.outbox (round.source rank)) (round.accept rank)]

/-- The boxes lead from one member of the group to another. -/
structure Proper (round : Round ρ β μ σ ε) (ranks : List ρ) (sender receiver : β → ρ) :
    Prop where
  sender : ∀ rank ∈ ranks, sender (round.outbox rank) = rank
  receiver : ∀ rank ∈ ranks, receiver (round.outbox (round.source rank)) = rank
  source : ∀ rank ∈ ranks, round.source rank ∈ ranks
  target : ∀ rank ∈ ranks, ∃ other ∈ ranks, round.source other = rank

/-- The effect of a round on the memories when all messages are sent first. -/
def Does (round : Round ρ β μ σ ε) (ranks : List ρ) (before after : ρ → σ) :
    Prop :=
  ∃ sent : ρ → μ, (∀ rank ∈ ranks, round.message rank (before rank) = .ok (sent rank)) ∧
    (∀ rank ∈ ranks, round.accept rank (sent (round.source rank)) (before rank) =
        .ok (after rank)) ∧
    ∀ rank ∉ ranks, after rank = before rank

end Round

section Rounds

variable {hub : Hub β μ ε} {sender receiver : β → ρ} {ranks : List ρ}

theorem Round.Proper.posted_eq {round : Round ρ β μ σ ε} {sent : ρ → μ}
    (proper : round.Proper ranks sender receiver) :
    posted sender round.outbox sent ranks =
      posted receiver (fun rank => round.outbox (round.source rank))
        (fun rank => sent (round.source rank)) ranks := by
  funext target
  unfold posted
  by_cases sends : sender target ∈ ranks ∧ round.outbox (sender target) = target
  · obtain ⟨member, same⟩ := sends
    obtain ⟨other, otherMember, isSource⟩ := proper.target (sender target) member
    have receives := proper.receiver other otherMember
    rw [isSource, same] at receives
    have here : round.outbox (round.source other) = target := by
      rw [isSource]
      exact same
    rw [if_pos ⟨member, same⟩, receives, if_pos ⟨otherMember, here⟩, ← isSource]
  · have quietBox : ¬(receiver target ∈ ranks ∧
        round.outbox (round.source (receiver target)) = target) := by
      intro ⟨member, same⟩
      have sends' := proper.sender _ (proper.source _ member)
      rw [same] at sends'
      apply sends
      rw [sends']
      exact ⟨proper.source _ member, same⟩
    rw [if_neg sends, if_neg quietBox]

omit [DecidableEq β] in
theorem Round.Does.overlay_eq {round : Round ρ β μ σ ε} {before after : ρ → σ}
    (does : round.Does ranks before after) :
    overlay ranks after before = after := by
  obtain ⟨_, _, _, outside⟩ := does
  funext rank
  by_cases member : rank ∈ ranks
  · exact overlay_of_mem member
  · rw [overlay_of_not_mem member, outside rank member]

/-- A round as a run of the network: first all sends, then all receives. -/
theorem Run.round {round : Round ρ β μ σ ε} {before after : ρ → σ} {thread : Nat}
    {rest rest' rest'' : ρ → Program β μ σ ε}
    (distinct : ranks.Nodup)
    (proper : round.Proper ranks sender receiver)
    (does : round.Does ranks before after)
    (sends : ∀ rank ∈ ranks, Advances thread (.send (round.outbox rank) (round.message rank))
        (rest rank) (rest' rank))
    (receives : ∀ rank ∈ ranks, Advances thread
        (.receive (round.outbox (round.source rank)) (round.accept rank))
        (rest' rank) (rest'' rank)) :
    Run (networkStep hub) (ranks.length + ranks.length)
      (quiet rest before) (quiet (overlay ranks rest'' rest) after) := by
  have total := does.overlay_eq
  obtain ⟨sent, ready, accepted, _⟩ := does
  have first := @Run.sends _ _ _ _ _ _ _ hub _ _ _ _ _ _ _ _ _ distinct sends ready proper.sender
  rw [proper.posted_eq] at first
  have second := @Run.receives _ _ _ _ _ _ _ hub _ _ _
    (overlay ranks rest' rest) rest'' _ _ _ _ _ distinct
    (by
      intro rank member
      rw [overlay_of_mem member]
      exact receives rank member)
    accepted proper.receiver
  have settled : overlay ranks rest'' (overlay ranks rest' rest) =
      overlay ranks rest'' rest := by
    funext rank
    by_cases member : rank ∈ ranks
    · rw [overlay_of_mem member, overlay_of_mem member]
    · rw [overlay_of_not_mem member, overlay_of_not_mem member, overlay_of_not_mem member]
  rw [settled, total] at second
  exact first.append second

/-- A round, or a computation of every participant on its own. -/
inductive Stage (ρ β μ σ ε : Type) where
  | exchange (round : Round ρ β μ σ ε)
  | alone (change : ρ → σ → Except ε σ)

namespace Stage

def instructions (rank : ρ) : Stage ρ β μ σ ε → Thread β μ σ ε
  | .exchange round => round.instructions rank
  | .alone change => [.compute (change rank)]

def Proper (ranks : List ρ) (sender receiver : β → ρ) :
    Stage ρ β μ σ ε → Prop
  | .exchange round => round.Proper ranks sender receiver
  | .alone _ => True

def Does (ranks : List ρ) (before after : ρ → σ) :
    Stage ρ β μ σ ε → Prop
  | .exchange round => round.Does ranks before after
  | .alone change =>
      (∀ rank ∈ ranks, change rank (before rank) = .ok (after rank)) ∧
        ∀ rank ∉ ranks, after rank = before rank

end Stage

/-- What a participant does in one channel of a list of stages. -/
def channelThread (schedule : List (Nat × Stage ρ β μ σ ε)) (rank : ρ) (channel : Nat) :
    Thread β μ σ ε :=
  (schedule.filter fun entry => decide (entry.1 = channel)).flatMap
    fun entry => entry.2.instructions rank

/-- One thread for each of the channels. -/
def channelPhase (channels : Nat) (schedule : List (Nat × Stage ρ β μ σ ε)) (rank : ρ) :
    Phase β μ σ ε :=
  (List.range channels).map (channelThread schedule rank)

/-- The effect of the stages, one after the other. -/
def DoesAll (ranks : List ρ) :
    List (Nat × Stage ρ β μ σ ε) → (ρ → σ) → (ρ → σ) → Prop
  | [], before, after => before = after
  | entry :: rest, before, after =>
      ∃ middle, entry.2.Does ranks before middle ∧ DoesAll ranks rest middle after

omit [DecidableEq ρ] [DecidableEq β] in
theorem channelThread_cons_self (channel : Nat) (stage : Stage ρ β μ σ ε)
    (rest : List (Nat × Stage ρ β μ σ ε)) (rank : ρ) :
    channelThread ((channel, stage) :: rest) rank channel =
      stage.instructions rank ++ channelThread rest rank channel := by
  simp [channelThread]

omit [DecidableEq ρ] [DecidableEq β] in
theorem channelThread_cons_of_ne {channel other : Nat} (stage : Stage ρ β μ σ ε)
    (rest : List (Nat × Stage ρ β μ σ ε)) (rank : ρ)
    (different : channel ≠ other) :
    channelThread ((channel, stage) :: rest) rank other =
      channelThread rest rank other := by
  simp [channelThread, different]

omit [DecidableEq ρ] [DecidableEq β] in
theorem channelPhase_set {channels channel : Nat} (stage : Stage ρ β μ σ ε)
    (rest : List (Nat × Stage ρ β μ σ ε)) (rank : ρ) :
    (channelPhase channels ((channel, stage) :: rest) rank).set channel
        (channelThread rest rank channel) =
      channelPhase channels rest rank := by
  apply List.ext_getElem?
  intro index
  rw [List.getElem?_set]
  split
  case isTrue same =>
    subst same
    simp only [channelPhase, List.length_map, List.length_range, List.getElem?_map]
    split
    case isTrue inside =>
      rw [List.getElem?_range inside]
      rfl
    case isFalse outside =>
      rw [List.getElem?_eq_none (by simpa using outside)]
      rfl
  case isFalse different =>
    simp only [channelPhase, List.getElem?_map]
    by_cases inside : index < channels
    · rw [List.getElem?_range inside]
      simp only [Option.map_some]
      rw [channelThread_cons_of_ne stage rest rank different]
    · rw [List.getElem?_eq_none (by simpa using inside)]
      rfl

omit [DecidableEq ρ] [DecidableEq β] in
theorem channelPhase_getElem? {channels channel : Nat} (inside : channel < channels)
    (schedule : List (Nat × Stage ρ β μ σ ε)) (rank : ρ) :
    (channelPhase channels schedule rank)[channel]? =
      some (channelThread schedule rank channel) := by
  simp [channelPhase, inside]

omit [DecidableEq β] in
theorem overlay_overlay {α : Type} (ranks : List ρ) (new old older : ρ → α) :
    overlay ranks new (overlay ranks old older) =
      overlay ranks new older := by
  funext rank
  by_cases member : rank ∈ ranks
  · rw [overlay_of_mem member, overlay_of_mem member]
  · rw [overlay_of_not_mem member, overlay_of_not_mem member, overlay_of_not_mem member]

omit [DecidableEq β] in
theorem overlay_of_agree {α : Type} {ranks : List ρ} {new old : ρ → α}
    (agree : ∀ rank ∉ ranks, new rank = old rank) :
    overlay ranks new old = new := by
  funext rank
  by_cases member : rank ∈ ranks
  · exact overlay_of_mem member
  · rw [overlay_of_not_mem member, agree rank member]

/-- A stage of one channel as a run of the network. -/
theorem Run.stage {channels channel : Nat} {later others : ρ → Program β μ σ ε}
    {stage : Stage ρ β μ σ ε} {rest : List (Nat × Stage ρ β μ σ ε)}
    {before after : ρ → σ}
    (distinct : ranks.Nodup) (inside : channel < channels)
    (proper : stage.Proper ranks sender receiver)
    (does : stage.Does ranks before after) :
    Reaches (networkStep hub)
      (quiet (overlay ranks
        (fun rank => channelPhase channels ((channel, stage) :: rest) rank ::
          later rank) others) before)
      (quiet (overlay ranks (fun rank => channelPhase channels rest rank :: later rank)
        others) after) := by
  cases stage with
  | exchange round =>
      have ran := @Run.round _ _ _ _ _ _ _ hub _ _ _ _ _ _ channel
        (overlay ranks
          (fun rank =>
            channelPhase channels ((channel, .exchange round) :: rest) rank :: later rank) others)
        (fun rank =>
          (channelPhase channels ((channel, .exchange round) :: rest) rank).set channel
            (.receive (round.outbox (round.source rank))
              (round.accept rank) :: channelThread rest rank channel) ::
            later rank)
        (fun rank => channelPhase channels rest rank :: later rank)
        distinct proper does ?_ ?_
      · rw [overlay_overlay] at ran
        exact ran.reaches
      · intro rank member
        rw [overlay_of_mem member]
        refine ⟨_, _, _, rfl, ?_, rfl⟩
        rw [channelPhase_getElem? inside, channelThread_cons_self]
        rfl
      · intro rank member
        refine ⟨_, _, channelThread rest rank channel, rfl, ?_, ?_⟩
        · rw [List.getElem?_set_self]
          simpa [channelPhase] using inside
        · rw [List.set_set, channelPhase_set]
  | alone change =>
      have ran := @Run.computes _ _ _ _ _ _ _ hub _ channel
        (overlay ranks
          (fun rank =>
            channelPhase channels ((channel, .alone change) :: rest) rank :: later rank) others)
        (fun rank => channelPhase channels rest rank :: later rank)
        before after change distinct ?_ does.1
      · rw [overlay_overlay, overlay_of_agree does.2] at ran
        exact ran.reaches
      · intro rank member
        rw [overlay_of_mem member]
        refine ⟨_, _, channelThread rest rank channel, rfl, ?_, ?_⟩
        · rw [channelPhase_getElem? inside, channelThread_cons_self]
          rfl
        · rw [channelPhase_set]

/-- All stages of all channels as a run of the network. -/
theorem Run.stages {channels : Nat} {later others : ρ → Program β μ σ ε} (distinct : ranks.Nodup)
    (schedule : List (Nat × Stage ρ β μ σ ε)) :
    ∀ {before after : ρ → σ},
      (∀ entry ∈ schedule, entry.1 < channels ∧ entry.2.Proper ranks sender receiver) →
      DoesAll ranks schedule before after →
      Reaches (networkStep hub)
        (quiet (overlay ranks (fun rank => channelPhase channels schedule rank :: later rank)
          others) before)
        (quiet (overlay ranks (fun rank => channelPhase channels [] rank :: later rank)
          others) after) := by
  induction schedule with
  | nil =>
      intro before after _ does
      cases does
      exact Reaches.refl _
  | cons entry rest ih =>
      intro before after proper does
      obtain ⟨channel, stage⟩ := entry
      obtain ⟨inside, properStage⟩ := proper _ List.mem_cons_self
      obtain ⟨middle, doesStage, doesRest⟩ := does
      have first := @Run.stage _ _ _ _ _ _ _ hub _ _ _ _ _ later others _
        rest _ _ distinct inside properStage doesStage
      exact first.trans (ih (fun other member => proper other (List.mem_cons_of_mem _ member))
        doesRest)

omit [DecidableEq ρ] [DecidableEq β] in
theorem channelPhase_nil_all_isEmpty (channels : Nat) (rank : ρ) :
    (channelPhase channels ([] : List (Nat × Stage ρ β μ σ ε)) rank).all List.isEmpty = true := by
  simp [channelPhase, channelThread]

/-- The stages of one channel after the other. -/
def byChannel (stages : Nat → List (Stage ρ β μ σ ε)) (channels : Nat) :
    List (Nat × Stage ρ β μ σ ε) :=
  (List.range channels).flatMap fun channel =>
    (stages channel).map (Prod.mk channel)

/-- The phase in which a participant runs all channels at once. -/
def forkedPhase (stages : Nat → List (Stage ρ β μ σ ε)) (channels : Nat) (rank : ρ) :
    Phase β μ σ ε :=
  (List.range channels).map fun channel =>
    (stages channel).flatMap (Stage.instructions rank)

omit [DecidableEq ρ] [DecidableEq β] in
theorem byChannel_succ (stages : Nat → List (Stage ρ β μ σ ε)) (channels : Nat) :
    byChannel stages (channels + 1) = byChannel stages channels ++ (stages channels).map
        (Prod.mk channels) := by
  simp [byChannel, List.range_succ]

omit [DecidableEq ρ] [DecidableEq β] in
theorem filter_byChannel (stages : Nat → List (Stage ρ β μ σ ε)) (channels channel : Nat) :
    ((byChannel stages channels).filter fun entry =>
      decide (entry.1 = channel)) =
      if channel < channels then (stages channel).map (Prod.mk channel)
      else [] := by
  induction channels with
  | zero => rfl
  | succ before ih =>
      rw [byChannel_succ, List.filter_append, ih]
      by_cases same : before = channel
      · subst same
        have all : ((stages before).map (Prod.mk before)).filter
            (fun entry => decide (entry.1 = before)) =
            (stages before).map (Prod.mk before) := by
          rw [List.filter_eq_self]
          intro entry member
          obtain ⟨stage, _, rfl⟩ := List.mem_map.mp member
          exact decide_eq_true rfl
        rw [all, if_neg (Nat.lt_irrefl before), if_pos (Nat.lt_succ_self before), List.nil_append]
      · have none : ((stages before).map (Prod.mk before)).filter
            (fun entry => decide (entry.1 = channel)) = [] := by
          rw [List.filter_eq_nil_iff]
          intro entry member
          obtain ⟨stage, _, rfl⟩ := List.mem_map.mp member
          exact fun equal => same (of_decide_eq_true equal)
        have earlier : channel < before + 1 ↔ channel < before := by
          omega
        rw [none, List.append_nil]
        simp only [earlier]

omit [DecidableEq ρ] [DecidableEq β] in
theorem channelPhase_byChannel
    (stages : Nat → List (Stage ρ β μ σ ε)) (channels : Nat) (rank : ρ) :
    channelPhase channels (byChannel stages channels) rank =
      forkedPhase stages channels rank := by
  refine List.map_congr_left ?_
  intro channel member
  rw [channelThread, filter_byChannel, if_pos (List.mem_range.mp member), List.flatMap_map]

omit [DecidableEq ρ] [DecidableEq β] in
theorem DoesAll.append {first second : List (Nat × Stage ρ β μ σ ε)} {before middle after : ρ → σ}
    (early : DoesAll ranks first before middle)
    (late : DoesAll ranks second middle after) :
    DoesAll ranks (first ++ second) before after := by
  induction first generalizing before with
  | nil =>
      cases early
      exact late
  | cons entry rest ih =>
      obtain ⟨next, does, remaining⟩ := early
      exact ⟨next, does, ih remaining⟩

omit [DecidableEq ρ] [DecidableEq β] in
/-- Stages that lead from each state of a sequence to the next one. -/
theorem DoesAll.steps {stage : Nat → Stage ρ β μ σ ε} {state : Nat → ρ → σ} (channel count : Nat)
    (each : ∀ step < count, (stage step).Does ranks (state step) (state (step + 1))) :
    DoesAll ranks (((List.range count).map stage).map (Prod.mk channel))
      (state 0) (state count) := by
  induction count with
  | zero => rfl
  | succ before ih =>
      rw [List.range_succ, List.map_append, List.map_append]
      refine DoesAll.append (ih fun step early =>
        each step (Nat.lt_succ_of_lt early)) ?_
      exact ⟨_, each before (Nat.lt_succ_self before), rfl⟩

omit [DecidableEq ρ] [DecidableEq β] in
/-- Channels that lead from each state of a sequence to the next one. -/
theorem DoesAll.channels {stages : Nat → List (Stage ρ β μ σ ε)} {state : Nat → ρ → σ}
    (count : Nat)
    (each : ∀ channel < count, DoesAll ranks ((stages channel).map (Prod.mk channel))
        (state channel) (state (channel + 1))) :
    DoesAll ranks (byChannel stages count) (state 0) (state count) := by
  induction count with
  | zero => rfl
  | succ before ih =>
      rw [byChannel_succ]
      exact (ih fun channel early =>
        each channel (Nat.lt_succ_of_lt early)).append (each before (Nat.lt_succ_self before))

/-- A group runs a schedule of its channels and joins them. -/
theorem Run.scheduled {channels : Nat} {later others : ρ → Program β μ σ ε}
    {schedule : List (Nat × Stage ρ β μ σ ε)} {before after : ρ → σ}
    (distinct : ranks.Nodup)
    (proper : ∀ entry ∈ schedule, entry.1 < channels ∧ entry.2.Proper ranks sender receiver)
    (does : DoesAll ranks schedule before after) :
    Reaches (networkStep hub)
      (quiet (overlay ranks (fun rank => channelPhase channels schedule rank :: later rank)
        others) before)
      (quiet (overlay ranks later others) after) := by
  have ran := @Run.stages _ _ _ _ _ _ _ hub sender receiver ranks channels
    later others distinct schedule before after proper does
  have joined := @Run.joins _ _ _ _ _ _ _ hub ranks
    (overlay ranks (fun rank => channelPhase channels [] rank :: later rank) others)
    later after distinct
    (by
      intro rank member
      rw [overlay_of_mem member]
      exact ⟨_, rfl, channelPhase_nil_all_isEmpty channels rank⟩)
  rw [overlay_overlay] at joined
  exact ran.trans joined.reaches

omit [DecidableEq ρ] [DecidableEq β] in
theorem byChannel_proper {channels : Nat} {stages : Nat → List (Stage ρ β μ σ ε)}
    (proper : ∀ channel < channels, ∀ stage ∈ stages channel,
      stage.Proper ranks sender receiver) :
    ∀ entry ∈ byChannel stages channels, entry.1 < channels ∧
      entry.2.Proper ranks sender receiver := by
  intro entry member
  obtain ⟨channel, inside, among⟩ := List.mem_flatMap.mp member
  obtain ⟨stage, listed, rfl⟩ := List.mem_map.mp among
  have bounded := List.mem_range.mp inside
  exact ⟨bounded, proper channel bounded stage listed⟩

/-- A group forks its channels, runs all their stages and joins them. -/
theorem Run.forked {channels : Nat} {later others : ρ → Program β μ σ ε}
    {stages : Nat → List (Stage ρ β μ σ ε)} {before after : ρ → σ}
    (distinct : ranks.Nodup)
    (proper : ∀ channel < channels, ∀ stage ∈ stages channel, stage.Proper ranks sender receiver)
    (does : DoesAll ranks (byChannel stages channels) before after) :
    Reaches (networkStep hub)
      (quiet (overlay ranks (fun rank => forkedPhase stages channels rank :: later rank)
        others) before)
      (quiet (overlay ranks later others) after) := by
  have ran := @Run.scheduled _ _ _ _ _ _ _ hub sender receiver ranks
    channels later others (byChannel stages channels) before after distinct
    (byChannel_proper proper) does
  simp only [channelPhase_byChannel] at ran
  exact ran

omit [DecidableEq ρ] [DecidableEq β] in
theorem channelPhase_append (first second : Nat → List (Stage ρ β μ σ ε)) (channels : Nat)
    (rank : ρ) :
    channelPhase channels (byChannel first channels ++ byChannel second channels) rank =
      forkedPhase (fun channel => first channel ++ second channel) channels
        rank := by
  refine List.map_congr_left ?_
  intro channel member
  have inside := List.mem_range.mp member
  rw [channelThread, List.filter_append, filter_byChannel, filter_byChannel,
    if_pos inside, if_pos inside, List.flatMap_append, List.flatMap_append,
    List.flatMap_map, List.flatMap_map]

/-- All channels may come to their second stages together. -/
theorem Run.forkedTwice {channels : Nat} {later others : ρ → Program β μ σ ε}
    {first second : Nat → List (Stage ρ β μ σ ε)}
    {before middle after : ρ → σ} (distinct : ranks.Nodup)
    (firstProper : ∀ channel < channels, ∀ stage ∈ first channel,
      stage.Proper ranks sender receiver)
    (secondProper : ∀ channel < channels, ∀ stage ∈ second channel,
      stage.Proper ranks sender receiver)
    (does : DoesAll ranks (byChannel first channels) before middle)
    (doesThen : DoesAll ranks (byChannel second channels) middle after) :
    Reaches (networkStep hub)
      (quiet (overlay ranks
        (fun rank => forkedPhase (fun channel => first channel ++ second channel) channels rank ::
            later rank) others) before)
      (quiet (overlay ranks later others) after) := by
  have ran := @Run.scheduled _ _ _ _ _ _ _ hub sender receiver ranks channels later others
    (byChannel first channels ++ byChannel second channels) before after
    distinct
    (by
      intro entry member
      rcases List.mem_append.mp member with early | late
      · exact byChannel_proper firstProper entry early
      · exact byChannel_proper secondProper entry late)
    (does.append doesThen)
  simp only [channelPhase_append] at ran
  exact ran

omit [DecidableEq ρ] [DecidableEq β] in
/-- Channels whose instructions are apart may run at once. -/
theorem SeparatePhase.forked {channels : Nat} {stages : Nat → List (Stage ρ β μ σ ε)} {rank : ρ}
    (apart : ∀ channel < channels, ∀ other < channels, channel ≠ other →
      ∀ instruction ∈ (stages channel).flatMap (Stage.instructions rank),
      ∀ concurrent ∈ (stages other).flatMap (Stage.instructions rank),
      Apart instruction concurrent)
    (owned : ∀ channel < channels,
      ∀ instruction ∈ (stages channel).flatMap (Stage.instructions rank),
      Owned hub sender receiver rank instruction) :
    SeparatePhase hub sender receiver rank (forkedPhase stages channels rank) := by
  constructor
  · rw [forkedPhase, List.pairwise_map]
    have distinct : (List.range channels).Pairwise (· ≠ ·) := List.nodup_range
    refine distinct.imp_of_mem ?_
    intro channel other inside otherInside different
    exact apart channel (List.mem_range.mp inside) other (List.mem_range.mp otherInside) different
  · intro thread member
    obtain ⟨channel, inside, rfl⟩ := List.mem_map.mp member
    exact owned channel (List.mem_range.mp inside)

end Rounds

/-! ## The meeting at the hub -/

section Meeting

variable {hub : Hub β μ ε} {sender receiver : β → ρ} {ranks : List ρ}

/-- A hub that takes one request from each participant and answers each of
them. -/
structure Meets (hub : Hub β μ ε) (ranks : List ρ) (sender receiver : β → ρ)
    (request response : ρ → β) : Prop where
  inputs : hub.inputs = ranks.map request
  outputs : hub.outputs = ranks.map response
  sender : ∀ rank ∈ ranks, sender (request rank) = rank
  receiver : ∀ rank ∈ ranks, receiver (response rank) = rank

theorem Meets.route_posted {request response : ρ → β} {sent reply : ρ → μ} {memory : ρ → σ}
    {answers : β → List μ}
    (meets : Meets hub ranks sender receiver request response)
    (answered : hub.answer (ranks.map sent) = .ok answers)
    (replies : ∀ rank ∈ ranks, answers (response rank) = [reply rank]) :
    route hub {
        memory := memory
        queues := posted sender request sent ranks } =
      some (.ok {
        memory := memory
        queues := posted receiver response reply ranks }) := by
  have content : ∀ rank ∈ ranks,
      posted sender request sent ranks (request rank) = [sent rank] := by
    intro rank member
    simp [posted, meets.sender rank member, member]
  refine route_eq.mpr ⟨ranks.map sent, answers, ?_, answered, ?_⟩
  · have found := @mapM_eq_map _ _ (fun box => (posted sender request sent ranks box).head?)
      (fun box => sent (sender box)) hub.inputs (by
        intro box input
        rw [meets.inputs, List.mem_map] at input
        obtain ⟨rank, member, same⟩ := input
        rw [← same, content rank member, meets.sender rank member]
        rfl)
    rw [found, meets.inputs, List.map_map]
    congr 1
    apply List.map_congr_left
    intro rank member
    simp [meets.sender rank member]
  · congr 1
    funext box
    have drained : (if box ∈ hub.inputs then
          (posted sender request sent ranks box).tail
        else posted sender request sent ranks box) = [] := by
      split
      case isTrue input =>
        rw [meets.inputs, List.mem_map] at input
        obtain ⟨rank, member, same⟩ := input
        rw [← same, content rank member]
        rfl
      case isFalse notInput =>
        rw [posted, if_neg]
        intro ⟨member, same⟩
        apply notInput
        rw [meets.inputs]
        exact List.mem_map.mpr ⟨_, member, same⟩
    rw [routed, drained, List.nil_append, posted]
    by_cases output : box ∈ hub.outputs
    · rw [if_pos output]
      rw [meets.outputs, List.mem_map] at output
      obtain ⟨rank, member, same⟩ := output
      have owner := meets.receiver rank member
      rw [same] at owner
      rw [owner, if_pos ⟨member, same⟩, ← same, replies rank member]
    · rw [if_neg output, if_neg]
      intro ⟨member, same⟩
      apply output
      rw [meets.outputs]
      exact List.mem_map.mpr ⟨_, member, same⟩

/-- All participants put a request, the hub answers and all take the answer. -/
theorem Run.meeting {request response : ρ → β} {message : ρ → σ → Except ε μ}
    {accept : ρ → μ → σ → Except ε σ} {sent reply : ρ → μ}
    {answers : β → List μ} {before after : ρ → σ} {thread : Nat}
    {rest rest' rest'' : ρ → Program β μ σ ε}
    (distinct : ranks.Nodup) (complete : ∀ rank, rank ∈ ranks)
    (meets : Meets hub ranks sender receiver request response)
    (ready : ∀ rank, message rank (before rank) = .ok (sent rank))
    (answered : hub.answer (ranks.map sent) = .ok answers)
    (replies : ∀ rank, answers (response rank) = [reply rank])
    (accepted : ∀ rank, accept rank (reply rank) (before rank) = .ok (after rank))
    (sends : ∀ rank, Advances thread (.send (request rank) (message rank)) (rest rank)
        (rest' rank))
    (receives : ∀ rank, Advances thread (.receive (response rank) (accept rank)) (rest' rank)
        (rest'' rank)) :
    Run (networkStep hub) (ranks.length + (1 + ranks.length))
      (quiet rest before) (quiet rest'' after) := by
  have whole : ∀ {α : Type} (new old : ρ → α), overlay ranks new old = new := by
    intro α new old
    funext rank
    exact overlay_of_mem (complete rank)
  have first := @Run.sends _ _ _ _ _ _ _ hub _ _ _ _ _ _ _ _ _ distinct
    (fun rank _ => sends rank) (fun rank _ => ready rank) meets.sender
  have second := @Run.receives _ _ _ _ _ _ _ hub _ _ _ rest' rest'' _ _ _ _ _
    distinct (fun rank _ => receives rank) (fun rank _ => accepted rank)
    meets.receiver
  rw [whole] at first
  rw [whole, whole] at second
  have routing := @Meets.route_posted _ _ _ _ _ _ _ _ _ _ _ _ _ _ _ before _
    meets answered (fun rank _ => replies rank)
  exact first.append ((Run.single (route_step_eq.mpr ⟨_, routing, rfl⟩)).append second)

end Meeting

/-- One message from a participant to another. -/
structure Handover (ρ β μ σ ε : Type) where
  source : ρ
  target : ρ
  box : β
  message : σ → Except ε μ
  accept : μ → σ → Except ε σ

namespace Handover

def instruction (handover : Handover ρ β μ σ ε) (rank : ρ) : Option (Instruction β μ σ ε) :=
  if rank = handover.source then
    some (.send handover.box handover.message)
  else if rank = handover.target then
    some (.receive handover.box handover.accept)
  else none

/-- The part of a participant in a list of handovers. -/
def thread (handovers : List (Handover ρ β μ σ ε)) (rank : ρ) :
    Thread β μ σ ε :=
  handovers.filterMap fun handover => handover.instruction rank

/-- The effect of the handovers, one after the other. -/
def Do : List (Handover ρ β μ σ ε) → (ρ → σ) → (ρ → σ) → Prop
  | [], before, after => before = after
  | handover :: rest, before, after =>
      ∃ sent memory, handover.message (before handover.source) = .ok sent ∧
        handover.accept sent (before handover.target) = .ok memory ∧
        Do rest (Function.update before handover.target memory) after

end Handover

section Handovers

variable {hub : Hub β μ ε}

/-- One message is put into an empty box and taken out again. -/
theorem Run.handover {handover : Handover ρ β μ σ ε} {rest : ρ → Thread β μ σ ε}
    {later : ρ → Program β μ σ ε} {before : ρ → σ} {sent : μ} {memory : σ}
    (different : handover.source ≠ handover.target)
    (ready : handover.message (before handover.source) = .ok sent)
    (accepted : handover.accept sent (before handover.target) = .ok memory) :
    Run (networkStep hub) 2
      (quiet (fun rank =>
        [(handover.instruction rank).toList ++ rest rank] :: later rank)
        before)
      (quiet (fun rank => [rest rank] :: later rank)
        (Function.update before handover.target memory)) := by
  have sends : networkStep hub
      (quiet (fun rank =>
        [(handover.instruction rank).toList ++ rest rank] :: later rank)
        before) (.run handover.source 0) =
      some (.ok {
        rest := Function.update
          (fun rank =>
            [(handover.instruction rank).toList ++ rest rank] :: later rank)
          handover.source ([rest handover.source] :: later handover.source)
        store := {
          memory := before
          queues := Function.update (fun _ => []) handover.box [sent] } }) := by
    refine run_eq.mpr ⟨_, _, .send handover.box handover.message,
      rest handover.source, _, rfl, ?_, perform_send_eq.mpr ⟨sent, ready, rfl⟩, rfl⟩
    simp [Handover.instruction]
  have waits : Function.update
      (fun rank =>
        [(handover.instruction rank).toList ++ rest rank] :: later rank)
      handover.source ([rest handover.source] :: later handover.source)
      handover.target = [.receive handover.box handover.accept :: rest handover.target] ::
          later handover.target := by
    simp [Handover.instruction, Ne.symm different]
  refine .next sends (@Run.single _ _ _ _ _ _ (.run handover.target 0)
    (run_eq.mpr ⟨_, _, _, _, _, waits, rfl,
      perform_receive_eq.mpr ⟨sent, [], memory, ?_, accepted, rfl⟩, ?_⟩))
  · dsimp only
    rw [Function.update_self]
  · unfold quiet
    congr 1
    · funext rank
      by_cases isTarget : rank = handover.target
      · subst isTarget
        simp
      · by_cases isSource : rank = handover.source
        · subst isSource
          simp [isTarget]
        · simp [isTarget, isSource, Handover.instruction]
    · congr 1
      funext box
      by_cases here : box = handover.box
      · subst here
        simp
      · simp [here]

omit [DecidableEq β] in
theorem Handover.thread_cons (handover : Handover ρ β μ σ ε)
    (handovers : List (Handover ρ β μ σ ε)) (rank : ρ) :
    Handover.thread (handover :: handovers) rank = (handover.instruction rank).toList ++
        Handover.thread handovers rank := by
  rw [Handover.thread, List.filterMap_cons]
  cases handover.instruction rank with
  | none => rfl
  | some instruction => rfl

/-- All handovers of a list as a run of the network. -/
theorem Run.handovers {rest : ρ → Thread β μ σ ε} {later : ρ → Program β μ σ ε}
    (handovers : List (Handover ρ β μ σ ε)) :
    ∀ {before after : ρ → σ}, (∀ handover ∈ handovers, handover.source ≠ handover.target) →
      Handover.Do handovers before after →
      Run (networkStep hub) (handovers.length * 2)
        (quiet (fun rank =>
          [Handover.thread handovers rank ++ rest rank] :: later rank)
          before)
        (quiet (fun rank => [rest rank] :: later rank) after) := by
  induction handovers with
  | nil =>
      intro before after _ does
      cases does
      exact .none
  | cons handover handovers ih =>
      intro before after different does
      obtain ⟨sent, memory, ready, accepted, remaining⟩ := does
      have first := @Run.handover _ _ _ _ _ _ _ hub handover
        (fun rank => Handover.thread handovers rank ++ rest rank) later _ _ _
        (different handover List.mem_cons_self) ready accepted
      have second := ih
        (fun other member => different other (List.mem_cons_of_mem handover member)) remaining
      rw [List.length_cons, Nat.succ_mul, Nat.add_comm]
      simp only [Handover.thread_cons, List.append_assoc]
      exact first.append second

end Handovers

namespace Handover

/-- Every participant with the effects of what was handed to it, in order. -/
def outcome (effect : Handover ρ β μ σ ε → σ → σ)
    (handovers : List (Handover ρ β μ σ ε)) (before : ρ → σ) : ρ → σ :=
  fun rank =>
    (handovers.filter fun handover => decide (handover.target = rank)).foldl
      (fun memory handover => effect handover memory) (before rank)

omit [DecidableEq β] in
theorem outcome_cons (effect : Handover ρ β μ σ ε → σ → σ) (handover : Handover ρ β μ σ ε)
    (handovers : List (Handover ρ β μ σ ε)) (before : ρ → σ) :
    outcome effect (handover :: handovers) before =
      outcome effect handovers (Function.update before handover.target
        (effect handover (before handover.target))) := by
  funext rank
  unfold outcome
  by_cases here : handover.target = rank
  · subst here
    rw [List.filter_cons_of_pos (by simp), List.foldl_cons,
      Function.update_self]
  · rw [List.filter_cons_of_neg (by simpa using here),
      Function.update_of_ne (Ne.symm here)]

omit [DecidableEq β] in
/-- Nobody passes on what was handed to it. -/
theorem do_outcome {effect : Handover ρ β μ σ ε → σ → σ} {sent : Handover ρ β μ σ ε → μ}
    (handovers : List (Handover ρ β μ σ ε)) :
    ∀ {before : ρ → σ},
      (∀ handover ∈ handovers, ∀ other ∈ handovers, handover.source ≠ other.target) →
      (∀ handover ∈ handovers, handover.message (before handover.source) = .ok (sent handover)) →
      (∀ handover ∈ handovers, ∀ memory, handover.accept (sent handover) memory =
          .ok (effect handover memory)) →
      Do handovers before (outcome effect handovers before) := by
  induction handovers with
  | nil =>
      intro before _ _ _
      rfl
  | cons handover rest ih =>
      intro before apart ready accepted
      refine ⟨sent handover, effect handover (before handover.target),
        ready handover List.mem_cons_self,
        accepted handover List.mem_cons_self _, ?_⟩
      rw [outcome_cons]
      apply ih
      · intro other member another among
        exact apart other (List.mem_cons_of_mem _ member) another (List.mem_cons_of_mem _ among)
      · intro other member
        rw [Function.update_of_ne (apart other
          (List.mem_cons_of_mem _ member) handover List.mem_cons_self)]
        exact ready other (List.mem_cons_of_mem _ member)
      · intro other member
        exact accepted other (List.mem_cons_of_mem _ member)

end Handover

end Schedule

end RuCCL.Library

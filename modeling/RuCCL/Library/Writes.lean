/-!
# States that are written entry by entry

A write sets what is observed at the keys that it hits and leaves the rest.  After a
run of writes that agree at a key, the key shows their value, or what it showed
before when none of them has hit it.
-/

namespace RuCCL.Library

section Writes

variable {State Entry Key Value : Type} {step : State → Entry → State}
  {observe : State → Key → Option Value} {hits : Entry → Key → Prop}
  [∀ entry key, Decidable (hits entry key)] {value : Entry → Value}
  {kept : State → Prop} {fits : Entry → Prop}

theorem kept_foldl (keeps : ∀ state entry, kept state → fits entry → kept (step state entry))
    {entries : List Entry} (all : ∀ entry ∈ entries, fits entry)
    {start : State} (begun : kept start) :
    kept (entries.foldl step start) := by
  induction entries generalizing start with
  | nil => exact begun
  | cons entry rest ih =>
      rw [List.foldl_cons]
      exact ih (fun other among => all other (List.mem_cons_of_mem _ among))
        (keeps start entry begun (all entry List.mem_cons_self))

/-- What a run of writes shows at a key where they agree. -/
theorem observe_foldl (keeps : ∀ state entry, kept state → fits entry → kept (step state entry))
    (writes : ∀ state entry key, kept state → fits entry → observe (step state entry) key =
        if hits entry key then some (value entry) else observe state key)
    {entries : List Entry} (all : ∀ entry ∈ entries, fits entry)
    {start : State} (begun : kept start) {key : Key} {agreed : Option Value}
    (same : ∀ entry ∈ entries, hits entry key → some (value entry) = agreed) :
    observe (entries.foldl step start) key =
      if ∃ entry ∈ entries, hits entry key then agreed
      else observe start key := by
  induction entries generalizing start with
  | nil =>
      rw [List.foldl_nil, if_neg]
      rintro ⟨entry, none, _⟩
      cases none
  | cons entry rest ih =>
      have fine := all entry List.mem_cons_self
      rw [List.foldl_cons, ih (fun other among => all other (List.mem_cons_of_mem _ among))
        (keeps start entry begun fine)
        (fun other among => same other (List.mem_cons_of_mem _ among))]
      by_cases later : ∃ other ∈ rest, hits other key
      · obtain ⟨other, among, hit⟩ := later
        rw [if_pos ⟨other, among, hit⟩, if_pos ⟨other, List.mem_cons_of_mem _ among, hit⟩]
      · rw [if_neg later, writes start entry key begun fine]
        by_cases now : hits entry key
        · rw [if_pos now, if_pos ⟨entry, List.mem_cons_self, now⟩,
            same entry List.mem_cons_self now]
        · rw [if_neg now, if_neg]
          rintro ⟨other, among, hit⟩
          rcases List.mem_cons.mp among with rfl | further
          · exact now hit
          · exact later ⟨other, further, hit⟩

end Writes

end RuCCL.Library

import Mathlib.Data.List.Basic

/-! A loop that performs the elements of a list and stops behind some of them. -/

set_option autoImplicit false

namespace Libpreempt.Sequence

variable {Element Output : Type*}

/-- The elements up to the first one that stops the loop. -/
def untilStop (stops : Element → Bool) : List Element → List Element
  | [] => []
  | element :: rest => if stops element then [element] else element :: untilStop stops rest

theorem untilStop_eq_self {stops : Element → Bool} {elements : List Element}
    (never : ∀ element ∈ elements, stops element = false) :
    untilStop stops elements = elements := by
  induction elements with
  | nil => rfl
  | cons element rest ih =>
      have later := ih fun element member => never element (List.mem_cons_of_mem _ member)
      simp [untilStop, never element List.mem_cons_self, later]

theorem untilStop_prefix (stops : Element → Bool) (elements : List Element) :
    untilStop stops elements <+: elements := by
  induction elements with
  | nil => exact List.prefix_refl []
  | cons element rest ih =>
      rw [untilStop]
      split
      · exact ⟨rest, rfl⟩
      · exact (List.prefix_cons_inj element).mpr ih

theorem untilStop_eq_nil_iff {stops : Element → Bool} {elements : List Element} :
    untilStop stops elements = [] ↔ elements = [] := by
  cases elements with
  | nil => simp [untilStop]
  | cons element rest =>
      rw [untilStop]
      split
      · simp
      · simp

theorem untilStop_append_of_stop {stops : Element → Bool} {before : List Element}
    (stop : before.any stops = true) (after : List Element) :
    untilStop stops (before ++ after) = untilStop stops before := by
  induction before with
  | nil => cases stop
  | cons element rest ih =>
      rw [List.cons_append, untilStop, untilStop]
      cases now : stops element with
      | true => simp
      | false =>
          have later : rest.any stops = true := by simpa [now] using stop
          simp [ih later]

theorem untilStop_append {stops : Element → Bool} {before : List Element}
    (never : before.any stops = false) (after : List Element) :
    untilStop stops (before ++ after) = before ++ untilStop stops after := by
  induction before with
  | nil => rfl
  | cons element rest ih =>
      obtain ⟨now, later⟩ : stops element = false ∧ rest.any stops = false := by
        simpa using never
      rw [List.cons_append, untilStop, ih later]
      simp [now]

theorem untilStop_map {Source : Type*} {stops : Element → Bool} (f : Source → Element)
    (sources : List Source) :
    untilStop stops (sources.map f) = (untilStop (fun source => stops (f source)) sources).map f := by
  induction sources with
  | nil => rfl
  | cons source rest ih =>
      rw [List.map_cons, untilStop, untilStop, ih]
      split
      · rfl
      · rfl

/-!
## Outputs of which only the last is bad
-/

def OnlyLast (bad : Output → Prop) (outputs : List Output) : Prop :=
  ∀ before output after, outputs = before ++ output :: after → bad output → after = []

variable {bad : Output → Prop}

theorem onlyLast_of_good {outputs : List Output} (good : ∀ output ∈ outputs, ¬ bad output) :
    OnlyLast bad outputs := by
  intro before output after shape fault
  exact absurd fault (good output (shape ▸ List.mem_append_right before List.mem_cons_self))

theorem OnlyLast.of_append {first second : List Output} (last : OnlyLast bad (first ++ second)) :
    OnlyLast bad first := by
  intro before output after shape fault
  have none := last before output (after ++ second) (by simp [shape]) fault
  exact (List.append_eq_nil_iff.mp none).1

theorem OnlyLast.of_append_right {first second : List Output}
    (last : OnlyLast bad (first ++ second)) : OnlyLast bad second := by
  intro before output after shape fault
  exact last (first ++ before) output after (by simp [shape]) fault

theorem onlyLast_append_iff {first second : List Output}
    (good : ∀ output ∈ first, ¬ bad output) :
    OnlyLast bad (first ++ second) ↔ OnlyLast bad second := by
  induction first with
  | nil => rfl
  | cons head first ih =>
      rw [← ih fun output member => good output (List.mem_cons_of_mem head member)]
      constructor
      · intro last before output after shape fault
        exact last (head :: before) output after (by simp [shape]) fault
      · intro last before output after shape fault
        cases before with
        | nil =>
            obtain ⟨rfl, _⟩ : head = output ∧ first ++ second = after := by simpa using shape
            exact absurd fault (good head List.mem_cons_self)
        | cons other before =>
            exact last before output after (by simpa using (List.cons.inj shape).2) fault

/-- A bad output and good ones before it. -/
theorem OnlyLast.split {outputs : List Output} (last : OnlyLast bad outputs)
    (some : ∃ output ∈ outputs, bad output) :
    ∃ before output, outputs = before ++ [output] ∧ bad output ∧ ∀ earlier ∈ before, ¬ bad earlier := by
  obtain ⟨output, member, fault⟩ := some
  obtain ⟨before, after, shape⟩ := List.append_of_mem member
  obtain rfl := last before output after shape fault
  refine ⟨before, output, shape, fault, ?_⟩
  intro earlier inside worse
  obtain ⟨front, back, split⟩ := List.append_of_mem inside
  have none := last front earlier (back ++ [output]) (by simp [shape, split]) worse
  exact List.cons_ne_nil _ _ (List.append_eq_nil_iff.mp none).2

/-- If the loop stops where the last output is bad, then only its very last
output is bad exactly when this holds for each element that it comes to
without one. -/
theorem onlyLast_untilStop_iff {stops : Element → Bool} {emit : Element → List Output}
    {elements : List Element}
    (stopped : ∀ element ∈ elements, OnlyLast bad (emit element) →
      (∃ output ∈ emit element, bad output) → stops element = true) :
    OnlyLast bad ((untilStop stops elements).flatMap emit) ↔
      ∀ before element after, elements = before ++ element :: after →
        (∀ earlier ∈ before, stops earlier = false ∧ ∀ output ∈ emit earlier, ¬ bad output) →
        OnlyLast bad (emit element) := by
  induction elements with
  | nil => exact iff_of_true (onlyLast_of_good (by simp [untilStop])) (by simp)
  | cons first rest ih =>
      have inner := ih fun element member => stopped element (List.mem_cons_of_mem first member)
      constructor
      · intro last before element after shape passed
        cases before with
        | nil =>
            obtain ⟨rfl, _⟩ : first = element ∧ rest = after := by simpa using shape
            rw [untilStop] at last
            split at last
            · simpa using last
            · rw [List.flatMap_cons] at last
              exact last.of_append
        | cons other before =>
            obtain ⟨rfl, later⟩ : first = other ∧ rest = before ++ element :: after := by
              simpa using shape
            obtain ⟨running, good⟩ := passed first List.mem_cons_self
            rw [untilStop, running, if_neg Bool.false_ne_true, List.flatMap_cons,
              onlyLast_append_iff good] at last
            exact inner.mp last before element after later
              fun earlier member => passed earlier (List.mem_cons_of_mem first member)
      · intro each
        have final := each [] first rest rfl (by simp)
        rw [untilStop]
        split
        · simpa using final
        · next running =>
            have good : ∀ output ∈ emit first, ¬ bad output :=
              fun output member fault =>
                running (stopped first List.mem_cons_self final ⟨output, member, fault⟩)
            rw [List.flatMap_cons, onlyLast_append_iff good, inner]
            intro before element after shape passed
            refine each (first :: before) element after (by simp [shape]) ?_
            intro earlier member
            rcases List.mem_cons.mp member with rfl | member
            · exact ⟨by simpa using running, good⟩
            · exact passed earlier member

/-- Such a loop has been stopped if one of its outputs is bad. -/
theorem any_stops_of_bad {stops : Element → Bool} {emit : Element → List Output}
    {elements : List Element}
    (stopped : ∀ element ∈ elements, OnlyLast bad (emit element) →
      (∃ output ∈ emit element, bad output) → stops element = true)
    (last : OnlyLast bad ((untilStop stops elements).flatMap emit))
    (some : ∃ output ∈ (untilStop stops elements).flatMap emit, bad output) :
    elements.any stops = true := by
  by_contra running
  have never : ∀ element ∈ elements, stops element = false := by simpa using running
  rw [untilStop_eq_self never] at last some
  obtain ⟨output, member, fault⟩ := some
  obtain ⟨element, inside, emitted⟩ := List.mem_flatMap.mp member
  obtain ⟨before, after, rfl⟩ := List.append_of_mem inside
  rw [List.flatMap_append, List.flatMap_cons] at last
  have stop := stopped element inside last.of_append_right.of_append ⟨output, emitted, fault⟩
  rw [never element inside] at stop
  cases stop

end Libpreempt.Sequence

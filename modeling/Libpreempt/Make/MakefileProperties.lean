import Libpreempt.Make.Makefile

/-! What is written is read back. -/

set_option autoImplicit false

namespace Libpreempt.Make

open Libpreempt.Shell

theorem ne_of_inert {c d : Char} (plain : inert c = true) (other : inert d = false) : c ≠ d := by
  rintro rfl
  cases plain.symm.trans other

theorem unblank_of_inert {c : Char} (plain : inert c = true) : blank c = false := by
  simp [blank, ne_of_inert plain (show inert ' ' = false from rfl),
    ne_of_inert plain (show inert '\t' = false from rfl),
    ne_of_inert plain (show inert '\n' = false from rfl)]

theorem unspecial_of_inert {c : Char} (plain : inert c = true) : special c = false := by
  simp [special, ne_of_inert plain (show inert '*' = false from rfl),
    ne_of_inert plain (show inert '?' = false from rfl),
    ne_of_inert plain (show inert '[' = false from rfl),
    ne_of_inert plain (show inert '\\' = false from rfl)]

theorem keeps_of_inert {globbing : Globbing} {word : Word} (nonempty : word ≠ [])
    (plain : ∀ c ∈ word, inert c = true) : globbing.Keeps word :=
  Globbing.keeps_of_plain nonempty (fun c inside => unblank_of_inert (plain c inside))
    fun c inside => unspecial_of_inert (plain c inside)

theorem calm_of_inert {c : Char} (plain : inert c = true) : calm c = true := by
  rw [calm, plain, Bool.true_or]

theorem ne_of_calm {c d : Char} (plain : calm c = true) (other : calm d = false) : c ≠ d := by
  rintro rfl
  cases plain.symm.trans other

/-!
## Names
-/

theorem isName_iff {text : List Char} :
    isName text = true ↔ (∀ c ∈ text, inert c = true) ∧ text ≠ [] ∧
      text.head? ≠ some '-' ∧ text.head? ≠ some '.' := by
  cases text with
  | nil => simp [isName]
  | cons first text => simp [isName]

theorem inert_of_isName {text : List Char} (named : isName text = true) :
    ∀ c ∈ text, inert c = true := (isName_iff.mp named).1

theorem ne_nil_of_isName {text : List Char} (named : isName text = true) : text ≠ [] :=
  (isName_iff.mp named).2.1

theorem isName_append {text rest : List Char} (named : isName text = true)
    (plain : ∀ c ∈ rest, inert c = true) : isName (text ++ rest) = true := by
  obtain ⟨letters, nonempty, front⟩ := isName_iff.mp named
  obtain ⟨first, others, rfl⟩ := List.exists_cons_of_ne_nil nonempty
  refine isName_iff.mpr ⟨fun c inside => ?_, List.cons_ne_nil _ _, front⟩
  rcases List.mem_append.mp inside with inside | inside
  · exact letters c inside
  · exact plain c inside

theorem splitWords_of_isName {text : List Char} (named : isName text = true) :
    splitWords text = [text] :=
  splitWords_of_unblank (ne_nil_of_isName named) fun c inside =>
    unblank_of_inert (inert_of_isName named c inside)

/-!
## Lines
-/

theorem readLine_of_isName {goal : List Char} (named : isName goal = true) (rest : List Char) :
    readLine (goal ++ rest) = readRule (goal ++ rest) := by
  obtain ⟨first, others, rfl⟩ := List.exists_cons_of_ne_nil (ne_nil_of_isName named)
  have letter := inert_of_isName named first List.mem_cons_self
  rw [List.cons_append, readLine]
  · exact List.cons_ne_nil _ _
  · rintro _ same
    exact ne_of_inert letter (show inert '#' = false from rfl) (List.cons.inj same).1
  · rintro _ same
    exact ne_of_inert letter (show inert '\t' = false from rfl) (List.cons.inj same).1

theorem readRule_eq {goal : List Char} (named : isName goal = true) (rest : List Char) :
    (goal ++ ':' :: rest).takeWhile (· != ':') = goal ∧
      (goal ++ ':' :: rest).dropWhile (· != ':') = ':' :: rest := by
  have letters : ∀ c ∈ goal, (c != ':') = true := fun c inside =>
    bne_iff_ne.mpr (ne_of_inert (inert_of_isName named c inside) rfl)
  constructor
  · rw [List.takeWhile_append_of_pos letters]
    simp
  · rw [List.dropWhile_append_of_pos letters]
    simp

theorem readLine_rule {goal text : List Char} (named : isName goal = true)
    (names : ∀ word ∈ splitWords text, isName word = true) :
    readLine (goal ++ ':' :: ' ' :: text) = some (.rule goal (splitWords text)) := by
  have words : splitWords (' ' :: text) = splitWords text := by
    rw [← List.nil_append (' ' :: text), splitWords_append rfl]
    rfl
  obtain ⟨before, behind⟩ := readRule_eq named (' ' :: text)
  rw [readLine_of_isName named, readRule, before, if_pos named, behind]
  change (if (splitWords (' ' :: text)).all isName then
    some (Line.rule goal (splitWords (' ' :: text))) else none) = _
  rw [words, if_pos (List.all_eq_true.mpr names)]

theorem readLine_inline {goal command : List Char} (named : isName goal = true)
    (letters : ∀ c ∈ command, inert c = true ∨ c = ' ') (front : command.head? ≠ some ' ') :
    readLine (goal ++ ':' :: ';' :: ' ' :: command) = some (.inline goal command) := by
  obtain ⟨before, behind⟩ := readRule_eq named (';' :: ' ' :: command)
  have plain : (' ' :: command).all (fun c => inert c || c == ' ') = true := by
    simpa using letters
  have stripped : (' ' :: command).dropWhile (· == ' ') = command := by
    rw [List.dropWhile_cons_of_pos rfl]
    cases command with
    | nil => rfl
    | cons first command => exact List.dropWhile_cons_of_neg (by simpa using front)
  rw [readLine_of_isName named, readRule, before, if_pos named, behind]
  simp only [stripped]
  rw [if_pos plain]

theorem readLine_of_spells {line : Line} {text : List Char} (spells : Spells line text) :
    readLine text = some line := by
  cases spells with
  | blank => rfl
  | comment ends => exact if_neg ends
  | rule named words names =>
      subst words
      exact readLine_rule named names
  | inline named letters front => exact readLine_inline named letters front
  | recipe text => rfl

theorem newline_notMem_of_inert {text : List Char} (plain : ∀ c ∈ text, inert c = true) :
    '\n' ∉ text := fun inside => ne_of_inert (plain _ inside) rfl rfl

theorem newline_notMem_of_calm {text : List Char} (plain : ∀ c ∈ text, calm c = true) :
    '\n' ∉ text := fun inside => ne_of_calm (plain _ inside) rfl rfl

theorem writes_blank : Writes .blank [] := ⟨List.not_mem_nil, .blank⟩

theorem writes_comment {text : List Char} (unbroken : '\n' ∉ text)
    (ends : text.getLast? ≠ some '\\') : Writes (.comment text) ('#' :: text) :=
  ⟨by simpa using unbroken, .comment ends⟩

theorem writes_rule (goal : List Char) {text : List Char} {prerequisites : List (List Char)}
    (named : isName goal = true) (words : splitWords text = prerequisites)
    (names : ∀ word ∈ prerequisites, isName word = true) (unbroken : '\n' ∉ text) :
    Writes (.rule goal prerequisites) (goal ++ ':' :: ' ' :: text) := by
  refine ⟨?_, .rule named words names⟩
  simpa [unbroken] using newline_notMem_of_inert (inert_of_isName named)

theorem writes_inline (goal : List Char) {command : List Char} (named : isName goal = true)
    (letters : ∀ c ∈ command, inert c = true ∨ c = ' ') (front : command.head? ≠ some ' ') :
    Writes (.inline goal command) (goal ++ ':' :: ';' :: ' ' :: command) := by
  have unbroken : '\n' ∉ command := by
    refine newline_notMem_of_calm fun c inside => ?_
    rcases letters c inside with letter | rfl
    · exact calm_of_inert letter
    · rfl
  refine ⟨?_, .inline named letters front⟩
  simpa [unbroken] using newline_notMem_of_inert (inert_of_isName named)

theorem writes_recipe {text : List Char} (unbroken : '\n' ∉ text) :
    Writes (.recipe text) ('\t' :: text) :=
  ⟨by simpa using unbroken, .recipe text⟩

theorem mapM_readLine {lines : List Line} {texts : List (List Char)}
    (written : List.Forall₂ Writes lines texts) :
    ((heredoc texts).splitOn '\n').mapM readLine = some (lines ++ [.blank]) := by
  induction written with
  | nil => rfl
  | @cons line text lines texts first _ ih =>
      have split : (heredoc (text :: texts)).splitOn '\n' =
          text :: (heredoc texts).splitOn '\n' := by
        rw [heredoc, List.flatMap_cons, ← heredoc, List.append_assoc, List.singleton_append,
          List.splitOn_append_cons_self_of_not_mem first.unbroken]
      rw [split, List.mapM_cons, readLine_of_spells first.spells, ih]
      rfl

/-!
## Rules
-/

theorem assemble_append_blank (lines : List Line) :
    assemble (lines ++ [.blank]) = assemble lines := by
  induction lines with
  | nil => rfl
  | cons line lines ih => rw [List.cons_append, assemble, ih, assemble]

theorem assemble_recipe (texts : List (List Char)) (lines : List Line) :
    assemble (texts.map Line.recipe ++ lines) =
      (texts ++ (assemble lines).1, (assemble lines).2) := by
  induction texts with
  | nil => rfl
  | cons text texts ih => simp only [List.map_cons, List.cons_append, assemble, ih]

/-- Each rule has the recipe that stands below it. -/
theorem assemble_rules (rules : List Rule) : assemble (rules.flatMap Rule.lines) = ([], rules) := by
  induction rules with
  | nil => rfl
  | cons rule rules ih =>
      rw [List.flatMap_cons, Rule.lines, List.cons_append, assemble, assemble_recipe, ih,
        List.append_nil]

/-- A makefile is read as what its lines give. -/
theorem read_heredoc {lines : List Line} {texts : List (List Char)}
    (written : List.Forall₂ Writes lines texts) {rules : List Rule}
    (assembled : assemble lines = ([], rules)) :
    read (heredoc texts) = rules.mapM Rule.expanded := by
  rw [read, mapM_readLine written, Option.bind_eq_bind, Option.bind_some, assemble_append_blank,
    assembled]

/-!
## Recipes
-/

theorem mapM_eq_some_map {Element Result : Type} {f : Element → Option Result}
    {g : Element → Result} {elements : List Element}
    (each : ∀ element ∈ elements, f element = some (g element)) :
    elements.mapM f = some (elements.map g) := by
  induction elements with
  | nil => rfl
  | cons element elements ih =>
      rw [List.mapM_cons, each element List.mem_cons_self,
        ih fun later member => each later (List.mem_cons_of_mem element member)]
      rfl

variable (rule : Rule)

theorem expand_append {text : List Char} (plain : ∀ c ∈ text, calm c = true) (rest : List Char) :
    rule.expand (text ++ rest) = (rule.expand rest).map (text ++ ·) := by
  induction text with
  | nil => simp
  | cons c text ih =>
      have first := plain c List.mem_cons_self
      have dollar : c ≠ '$' := ne_of_calm first rfl
      rw [List.cons_append, Rule.expand, if_pos first,
        ih fun later inside => plain later (List.mem_cons_of_mem c inside), Option.map_map]
      · rfl
      · rintro _ rfl
        exact absurd rfl dollar
      · rintro _ rfl
        exact absurd rfl dollar

theorem expand_of_calm {text : List Char} (plain : ∀ c ∈ text, calm c = true) :
    rule.expand text = some text := by
  have whole := expand_append rule plain []
  simpa [Rule.expand] using whole

/-- The command line that ends in the goal and the prerequisites. -/
theorem expand_goal_prerequisites {text : List Char} (plain : ∀ c ∈ text, calm c = true) :
    rule.expand (text ++ ['$', '@', ' ', '$', '^']) =
      some (text ++ rule.goal ++ ' ' :: spaced rule.prerequisites.eraseDups) := by
  have separator : calm ' ' = true := rfl
  rw [expand_append rule plain]
  simp [Rule.expand, separator]

end Libpreempt.Make

import Libpreempt.Make.MakefileProperties
import Libpreempt.TestMatrix.Rules
import Libpreempt.TestMatrix.TargetsProperties

/-! Which rule the makefile has for each executable. -/

set_option autoImplicit false

namespace Libpreempt.TestMatrix

open Libpreempt.Shell

variable {programs : Programs} (tree : Tree)

theorem rules_eq_assign (programs : Programs) (entries : List FileName)
    (standards optimizations : List (List Char)) :
    programs.rules tree entries standards optimizations =
      AssociativeArray.assign ∅
        (((defaulted optimizations).flatMap programs.unquoted).flatMap fun optimization =>
          ((programs.tests entries).flatMap programs.unquoted).flatMap fun test =>
            (standards.flatMap programs.unquoted).map fun standard =>
              (programs.target test standard optimization,
                tree.compile standard (programs.flags optimization))) := by
  simp only [Programs.rules, AssociativeArray.assign, List.foldl_flatMap, List.foldl_map]

section Kept

variable {entries : List FileName} {standards optimizations : List (List Char)}
  (keptNames : ∀ name ∈ entries.filter accepted, programs.Keeps (path name))
  (keptStandards : ∀ standard ∈ standards, programs.Keeps standard)
  (keptOptimizations : ∀ optimization ∈ defaulted optimizations, programs.Keeps optimization)

include keptNames keptStandards keptOptimizations

theorem rules_of_keeps :
    programs.rules tree entries standards optimizations =
      AssociativeArray.assign ∅ ((triples entries standards optimizations).map
        fun triple => (programs.target (path triple.2.1) triple.2.2 triple.1,
          tree.compile triple.2.2 (programs.flags triple.1))) := by
  have keptPaths : ∀ word ∈ (entries.filter accepted).map path, programs.Keeps word := by
    intro word member
    obtain ⟨name, found, rfl⟩ := List.mem_map.mp member
    exact keptNames name found
  rw [rules_eq_assign, tests_of_keeps keptNames, flatMap_unquoted_of_keeps keptPaths,
    flatMap_unquoted_of_keeps keptStandards, flatMap_unquoted_of_keeps keptOptimizations]
  simp only [triples, SProd.sprod, List.product, List.map_flatMap, List.map_map, List.flatMap_map]
  rfl

/-- The command of a target has its own standard and the flags of its own optimization, also where
two tests have that target. -/
theorem lookup_rules
    (dotFree : ∀ word ∈ standards ++ defaulted optimizations, '.' ∉ word)
    {triple : List Char × FileName × List Char}
    (member : triple ∈ triples entries standards optimizations) :
    (programs.rules tree entries standards optimizations).lookup
        (programs.target (path triple.2.1) triple.2.2 triple.1) =
      some (tree.compile triple.2.2 (programs.flags triple.1)) := by
  rw [rules_of_keeps tree keptNames keptStandards keptOptimizations]
  have placed := List.mem_map_of_mem (f := fun triple : List Char × FileName × List Char =>
    (programs.target (path triple.2.1) triple.2.2 triple.1,
      tree.compile triple.2.2 (programs.flags triple.1))) member
  refine AssociativeArray.lookup_assign ?_ placed ∅
  intro left inLeft right inRight same
  obtain ⟨first, firstTriple, rfl⟩ := List.mem_map.mp inLeft
  obtain ⟨second, secondTriple, rfl⟩ := List.mem_map.mp inRight
  rw [target_triple keptNames keptStandards keptOptimizations firstTriple,
    target_triple keptNames keptStandards keptOptimizations secondTriple] at same
  obtain ⟨firstOptimization, _, firstStandard⟩ := mem_triples_iff.mp firstTriple
  obtain ⟨secondOptimization, _, secondStandard⟩ := mem_triples_iff.mp secondTriple
  obtain ⟨heads, optimizationsEqual⟩ := eq_of_append_dot
    (dotFree _ (List.mem_append_right _ firstOptimization))
    (dotFree _ (List.mem_append_right _ secondOptimization)) same
  obtain ⟨_, standardsEqual⟩ := eq_of_append_dot
    (dotFree _ (List.mem_append_left _ firstStandard))
    (dotFree _ (List.mem_append_left _ secondStandard)) heads
  rw [optimizationsEqual, standardsEqual]

end Kept

/-!
## Plain names
-/

theorem goal_injective : Function.Injective tree.goal := by
  intro left right same
  exact (List.cons.inj (List.append_cancel_left same)).2

theorem inert_path {name : FileName} (plain : ∀ c ∈ name.text, Make.inert c = true) :
    ∀ c ∈ path name, Make.inert c = true := by
  have directory : ∀ c ∈ inDir, Make.inert c = true := by decide
  intro c inside
  rcases List.mem_append.mp inside with inside | inside
  · exact directory c inside
  · rcases List.mem_cons.mp inside with rfl | inside
    · rfl
    · exact plain c inside

/-- The flags of an optimization are options that stand for themselves. -/
theorem inert_flags (programs : Programs) {optimization : Word}
    (plain : ∀ c ∈ optimization, Make.inert c = true) :
    ∀ flag ∈ programs.flags optimization, ∀ c ∈ flag, Make.inert c = true := by
  have dashed : programs.unquoted ('-' :: optimization) = ['-' :: optimization] := by
    refine (Make.keeps_of_inert (List.cons_ne_nil _ _) fun c inside => ?_).unquoted
    rcases List.mem_cons.mp inside with rfl | inside
    · rfl
    · exact plain c inside
  unfold Programs.flags
  split_ifs
  · simp
  · decide
  · rw [dashed]
    intro flag member c inside
    cases List.mem_singleton.mp member
    rcases List.mem_cons.mp inside with rfl | inside
    · rfl
    · exact plain c inside
  · decide
  · decide
  · decide
  · simp

theorem calm_spaced {words : List Word} (plain : ∀ word ∈ words, ∀ c ∈ word, Make.inert c = true) :
    ∀ c ∈ spaced words, Make.calm c = true := by
  intro c inside
  rcases mem_spaced inside with rfl | ⟨word, member, inside⟩
  · rfl
  · exact Make.calm_of_inert (plain word member c inside)

namespace Tree.Plain

variable {tree} {entries : List FileName} {standards optimizations : List (List Char)}
  (plain : tree.Plain programs entries standards optimizations)

include plain

theorem keptNames : ∀ name ∈ entries.filter accepted, programs.Keeps (path name) := by
  intro name found
  exact Make.keeps_of_inert (by simp [path]) (inert_path (plain.tests name found).1)

theorem keptStandards : ∀ standard ∈ standards, programs.Keeps standard := by
  intro standard member
  obtain ⟨nonempty, letters⟩ := plain.words standard (List.mem_append_left _ member)
  exact Make.keeps_of_inert nonempty fun c inside => (letters c inside).1

theorem keptOptimizations : ∀ optimization ∈ defaulted optimizations,
    programs.Keeps optimization := by
  apply keeps_defaulted
  intro optimization member
  obtain ⟨nonempty, letters⟩ := plain.words optimization (List.mem_append_right _ member)
  exact Make.keeps_of_inert nonempty fun c inside => (letters c inside).1

theorem words_defaulted : ∀ word ∈ standards ++ defaulted optimizations,
    ∀ c ∈ word, Make.inert c = true ∧ c ≠ '.' ∧ c ≠ '/' := by
  intro word member
  rcases List.mem_append.mp member with inStandards | inOptimizations
  · exact (plain.words word (List.mem_append_left _ inStandards)).2
  · rcases mem_defaulted inOptimizations with rfl | inOptimizations
    · decide
    · exact (plain.words word (List.mem_append_right _ inOptimizations)).2

theorem dotFree : ∀ word ∈ standards ++ defaulted optimizations, '.' ∉ word :=
  fun word member inside => (plain.words_defaulted word member _ inside).2.1 rfl

theorem inert_triple {triple : List Char × FileName × List Char}
    (member : triple ∈ triples entries standards optimizations) :
    ∀ c ∈ stem triple.2.1 ++ '.' :: triple.2.2 ++ '.' :: triple.1, Make.inert c = true := by
  obtain ⟨inOptimizations, found, inStandards⟩ := mem_triples_iff.mp member
  intro c inside
  simp only [List.append_assoc, List.cons_append, List.mem_append, List.mem_cons] at inside
  rcases inside with inStem | rfl | inStandard | rfl | inOptimization
  · exact inert_path (plain.tests _ found).1 c
      (mem_path_of_stem (List.mem_filter.mp found).2 inStem)
  · rfl
  · exact (plain.words_defaulted _ (List.mem_append_left _ inStandards) c inStandard).1
  · rfl
  · exact (plain.words_defaulted _ (List.mem_append_right _ inOptimizations) c inOptimization).1

theorem isName_goal {target : List Char} (letters : ∀ c ∈ target, Make.inert c = true) :
    Make.isName (tree.goal target) = true := by
  refine Make.isName_append plain.march.1 fun c inside => ?_
  rcases List.mem_cons.mp inside with rfl | inside
  · rfl
  · exact letters c inside

theorem isName_sources : ∀ word ∈ tree.sources programs, Make.isName word = true := by
  intro word member
  obtain ⟨f, found, inside⟩ := List.mem_flatMap.mp member
  have named := plain.sources f found
  rw [(Make.keeps_of_inert (Make.ne_nil_of_isName named) (Make.inert_of_isName named)).unquoted]
    at inside
  rwa [List.mem_singleton.mp inside]

theorem inert_march : ∀ c ∈ tree.march, Make.inert c = true := Make.inert_of_isName plain.march.1

theorem letters_cleaning : ∀ c ∈ tree.cleaning, Make.inert c = true ∨ c = ' ' := by
  have fixed : ∀ c ∈ ['r', 'm', ' ', '-', 'f', 'r', ' ', '/'], Make.inert c = true ∨ c = ' ' := by
    decide
  intro c inside
  rcases List.mem_append.mp inside with inside | inside
  · rcases List.mem_append.mp inside with inside | inside
    · exact fixed c (List.mem_append_left ['/'] inside)
    · exact .inl (plain.inert_march c inside)
  · exact fixed c (List.mem_append_right ['r', 'm', ' ', '-', 'f', 'r', ' '] inside)

theorem calm_making : ∀ c ∈ tree.making, Make.calm c = true := by
  have fixed : ∀ c ∈ ['@', 'm', 'k', 'd', 'i', 'r', ' ', '-', 'p', ' ', '/'],
      Make.calm c = true := by decide
  intro c inside
  rcases List.mem_append.mp inside with inside | inside
  · rcases List.mem_append.mp inside with inside | inside
    · exact fixed c (List.mem_append_left ['/'] inside)
    · exact Make.calm_of_inert (plain.inert_march c inside)
  · exact fixed c (List.mem_append_right ['@', 'm', 'k', 'd', 'i', 'r', ' ', '-', 'p', ' '] inside)

theorem calm_compileTo {standard optimization : Word} (inStandards : standard ∈ standards)
    (inOptimizations : optimization ∈ defaulted optimizations) :
    ∀ c ∈ tree.compileTo standard (programs.flags optimization), Make.calm c = true := by
  have standardPlain := plain.words_defaulted standard (List.mem_append_left _ inStandards)
  have flagsPlain := inert_flags programs fun c inside =>
    (plain.words_defaulted optimization (List.mem_append_right _ inOptimizations) c inside).1
  have fixed : ∀ c ∈ [' ', '-', 's', 't', 'd', '=', 'I', 'o'], Make.calm c = true := by decide
  intro c inside
  simp only [compileTo, List.append_assoc, List.cons_append, List.nil_append, List.mem_append,
    List.mem_cons, List.not_mem_nil, or_false] at inside
  have parts : c ∈ [' ', '-', 's', 't', 'd', '=', 'I', 'o'] ∨ c ∈ spaced tree.cc ∨ c ∈ standard ∨
      c ∈ spaced (programs.flags optimization) ∨ c ∈ tree.includeDir := by
    simp only [List.mem_cons, List.not_mem_nil, or_false]
    grind
  rcases parts with inside | inside | inside | inside | inside
  · exact fixed c inside
  · exact calm_spaced plain.cc c inside
  · exact Make.calm_of_inert (standardPlain c inside).1
  · exact calm_spaced flagsPlain c inside
  · exact Make.calm_of_inert (plain.includeDir c inside)

end Tree.Plain

/-!
## The makefile
-/

/-- What the first heredoc writes. -/
def Tree.headerLines (goals : List (List Char)) : List Make.Line :=
  [.comment modeline, .comment relative,
    .comment ([' ', ' ', ' ', ' '] ++ substitute (tree.realpath [buildDir])), .blank,
    .rule ['a', 'l', 'l'] [['b', 'u', 'i', 'l', 'd']], .blank,
    .rule ['b', 'u', 'i', 'l', 'd'] goals, .blank,
    .inline ['c', 'l', 'e', 'a', 'n'] tree.cleaning, .blank]

/-- What the heredoc of one target writes, with the command as it stands there. -/
def Tree.ruleAsWritten (programs : Programs) (name : FileName) (standard optimization : Word) :
    Make.Rule where
  goal := tree.goal (stem name ++ '.' :: standard ++ '.' :: optimization)
  prerequisites := substitute (tree.realpath [path name]) :: tree.sources programs
  recipe := [tree.making, tree.compile standard (programs.flags optimization), []]

theorem newline_notMem_spaced {words : List Word}
    (named : ∀ word ∈ words, Make.isName word = true) : '\n' ∉ spaced words :=
  Make.newline_notMem_of_calm (calm_spaced fun word member => Make.inert_of_isName (named word member))

theorem assemble_header (goals : List (List Char)) (rules : List Make.Rule) :
    Make.assemble (tree.headerLines goals ++ rules.flatMap Make.Rule.lines) =
      ([], tree.generalRules goals ++ rules) := by
  simp [Tree.headerLines, Tree.generalRules, Make.assemble, Make.assemble_rules]

theorem slash_notMem_generalRules {tree : Tree} {goals : List (List Char)} {rule : Make.Rule}
    (general : rule ∈ tree.generalRules goals) : '/' ∉ rule.goal := by
  simp only [Tree.generalRules, List.mem_cons, List.not_mem_nil, or_false] at general
  rcases general with rfl | rfl | rfl
  · decide
  · exact show '/' ∉ ['b', 'u', 'i', 'l', 'd'] by decide
  · exact show '/' ∉ ['c', 'l', 'e', 'a', 'n'] by decide

section Plain

variable {tree} {entries : List FileName} {standards optimizations : List (List Char)}
  (plain : tree.Plain programs entries standards optimizations)

include plain

theorem writes_header {goals : List (List Char)}
    (named : ∀ goal ∈ goals, Make.isName goal = true) :
    List.Forall₂ Make.Writes (tree.headerLines goals) (tree.header goals) := by
  have directory : ∀ c ∈ [' ', ' ', ' ', ' '] ++ substitute (tree.realpath [buildDir]),
      Make.calm c = true := by
    have fixed : ∀ c ∈ [' ', ' ', ' ', ' '], Make.calm c = true := by decide
    intro c inside
    rcases List.mem_append.mp inside with inside | inside
    · exact fixed c inside
    · exact Make.calm_of_inert (plain.buildDir c inside)
  have ends : ([' ', ' ', ' ', ' '] ++ substitute (tree.realpath [buildDir])).getLast? ≠
      some '\\' := by
    intro last
    exact Make.ne_of_calm (directory _ (List.mem_of_getLast? last)) rfl rfl
  have goalsRead : splitWords (spaced goals) = goals :=
    splitWords_spaced fun goal member => Make.splitWords_of_isName (named goal member)
  refine .cons (Make.writes_comment (by decide) (by decide)) (.cons (Make.writes_comment (by decide)
    (by decide)) (.cons (Make.writes_comment (Make.newline_notMem_of_calm directory) ends)
    (.cons Make.writes_blank (.cons ?_ (.cons Make.writes_blank (.cons ?_ (.cons Make.writes_blank
    (.cons ?_ (.cons Make.writes_blank .nil)))))))))
  · exact Make.writes_rule ['a', 'l', 'l'] rfl rfl (by decide) (by decide)
  · exact Make.writes_rule ['b', 'u', 'i', 'l', 'd'] rfl goalsRead named
      (newline_notMem_spaced named)
  · exact Make.writes_inline ['c', 'l', 'e', 'a', 'n'] rfl plain.letters_cleaning
      (by simp [Tree.cleaning])

theorem goal_ruleOf_injective (stems : ((entries.filter accepted).map stem).Nodup)
    {left right : List Char × FileName × List Char}
    (inLeft : left ∈ triples entries standards optimizations)
    (inRight : right ∈ triples entries standards optimizations)
    (same : (tree.ruleOf programs left.2.1 left.2.2 left.1).goal =
      (tree.ruleOf programs right.2.1 right.2.2 right.1).goal) : left = right := by
  apply target_injective plain.keptNames plain.keptStandards plain.keptOptimizations stems
    plain.dotFree inLeft inRight
  rw [target_triple plain.keptNames plain.keptStandards plain.keptOptimizations inLeft,
    target_triple plain.keptNames plain.keptStandards plain.keptOptimizations inRight]
  exact goal_injective tree same

theorem writes_block {triple : List Char × FileName × List Char}
    (member : triple ∈ triples entries standards optimizations) :
    List.Forall₂ Make.Writes (tree.ruleAsWritten programs triple.2.1 triple.2.2 triple.1).lines
      (tree.block programs (programs.rules tree entries standards optimizations)
        (programs.target (path triple.2.1) triple.2.2 triple.1) (path triple.2.1)) := by
  obtain ⟨inOptimizations, found, inStandards⟩ := mem_triples_iff.mp member
  have command := lookup_rules tree plain.keptNames plain.keptStandards plain.keptOptimizations
    plain.dotFree member
  have target := target_triple plain.keptNames plain.keptStandards plain.keptOptimizations member
  have names : ∀ word ∈ substitute (tree.realpath [path triple.2.1]) :: tree.sources programs,
      Make.isName word = true := by
    intro word inside
    rcases List.mem_cons.mp inside with rfl | inside
    · exact (plain.tests _ found).2
    · exact plain.isName_sources word inside
  have read : splitWords (substitute (tree.realpath [path triple.2.1]) ++
        ' ' :: spaced (tree.sources programs)) =
      substitute (tree.realpath [path triple.2.1]) :: tree.sources programs := by
    rw [splitWords_append rfl, Make.splitWords_of_isName (plain.tests _ found).2,
      splitWords_spaced fun word inside =>
        Make.splitWords_of_isName (plain.isName_sources word inside)]
    rfl
  have unbroken : '\n' ∉ substitute (tree.realpath [path triple.2.1]) ++
      ' ' :: spaced (tree.sources programs) := by
    simp [newline_notMem_spaced plain.isName_sources,
      Make.newline_notMem_of_inert (Make.inert_of_isName (plain.tests _ found).2)]
  have compiled : '\n' ∉ tree.compile triple.2.2 (programs.flags triple.1) := by
    simp [Tree.compile,
      Make.newline_notMem_of_calm (plain.calm_compileTo inStandards inOptimizations)]
  rw [Tree.block, command, target, (plain.keptNames _ found).unquoted]
  exact .cons (Make.writes_rule _ (plain.isName_goal (plain.inert_triple member)) read names unbroken)
    (.cons (Make.writes_recipe (Make.newline_notMem_of_calm plain.calm_making))
    (.cons (Make.writes_recipe compiled) (.cons (Make.writes_recipe List.not_mem_nil) .nil)))

/-- The command of the rule, as `make` gives it to the shell. -/
theorem expanded_rule {triple : List Char × FileName × List Char}
    (member : triple ∈ triples entries standards optimizations) :
    (tree.ruleAsWritten programs triple.2.1 triple.2.2 triple.1).expanded =
      some (tree.ruleOf programs triple.2.1 triple.2.2 triple.1) := by
  obtain ⟨inOptimizations, _, inStandards⟩ := mem_triples_iff.mp member
  have compiled := Make.expand_goal_prerequisites
    (tree.ruleAsWritten programs triple.2.1 triple.2.2 triple.1)
    (plain.calm_compileTo inStandards inOptimizations)
  have made := Make.expand_of_calm (tree.ruleAsWritten programs triple.2.1 triple.2.2 triple.1)
    plain.calm_making
  rw [← Tree.compile] at compiled
  change Option.map _ (List.mapM _ [tree.making,
    tree.compile triple.2.2 (programs.flags triple.1), []]) = _
  rw [List.mapM_cons, made, List.mapM_cons, compiled]
  rfl

theorem writes_blocks {order : List (List Char × FileName × List Char)}
    (inside : ∀ triple ∈ order, triple ∈ triples entries standards optimizations) :
    List.Forall₂ Make.Writes
      ((order.map fun triple =>
        tree.ruleAsWritten programs triple.2.1 triple.2.2 triple.1).flatMap Make.Rule.lines)
      (order.flatMap fun triple =>
        tree.block programs (programs.rules tree entries standards optimizations)
          (programs.target (path triple.2.1) triple.2.2 triple.1) (path triple.2.1)) := by
  induction order with
  | nil => exact .nil
  | cons triple order ih =>
      have first := writes_block plain (inside triple List.mem_cons_self)
      have rest := ih fun later member => inside later (List.mem_cons_of_mem triple member)
      rw [List.map_cons, List.flatMap_cons, List.flatMap_cons]
      exact List.rel_append first rest

theorem expanded_rules {order : List (List Char × FileName × List Char)}
    (inside : ∀ triple ∈ order, triple ∈ triples entries standards optimizations) :
    (order.map fun triple => tree.ruleAsWritten programs triple.2.1 triple.2.2 triple.1).mapM
        Make.Rule.expanded =
      some (order.map fun triple => tree.ruleOf programs triple.2.1 triple.2.2 triple.1) := by
  rw [List.mapM_map]
  exact Make.mapM_eq_some_map fun triple member => expanded_rule plain (inside triple member)

theorem expanded_cleaning :
    Make.Rule.expanded ⟨['c', 'l', 'e', 'a', 'n'], [], [tree.cleaning]⟩ =
      some ⟨['c', 'l', 'e', 'a', 'n'], [], [tree.cleaning]⟩ := by
  have calm : ∀ c ∈ tree.cleaning, Make.calm c = true := by
    intro c inside
    rcases plain.letters_cleaning c inside with letter | rfl
    · exact Make.calm_of_inert letter
    · rfl
  have whole := Make.expand_of_calm ⟨['c', 'l', 'e', 'a', 'n'], [], [tree.cleaning]⟩ calm
  rw [Make.Rule.expanded, List.mapM_cons, whole]
  rfl

/-- What the makefile holds is what `make` reads in it. -/
theorem read_makefile {order : List (List Char × FileName × List Char)}
    (inside : ∀ triple ∈ order, triple ∈ triples entries standards optimizations)
    (elements : (programs.targets entries standards optimizations).entries = order.map
      fun triple => ⟨programs.target (path triple.2.1) triple.2.2 triple.1, path triple.2.1⟩) :
    Make.read (programs.makefile tree entries standards optimizations) =
      some (tree.generalRules (order.map fun triple =>
          (tree.ruleOf programs triple.2.1 triple.2.2 triple.1).goal) ++
        order.map fun triple => tree.ruleOf programs triple.2.1 triple.2.2 triple.1) := by
  have goals : (programs.targets entries standards optimizations).keys.map tree.goal =
      order.map fun triple => (tree.ruleOf programs triple.2.1 triple.2.2 triple.1).goal := by
    rw [AList.keys, List.keys, elements, List.map_map, List.map_map]
    refine List.map_congr_left fun triple member => ?_
    exact congrArg tree.goal (target_triple plain.keptNames plain.keptStandards
      plain.keptOptimizations (inside triple member))
  have named : ∀ goal ∈ order.map
      (fun triple => (tree.ruleOf programs triple.2.1 triple.2.2 triple.1).goal),
      Make.isName goal = true := by
    intro goal member
    obtain ⟨triple, found, rfl⟩ := List.mem_map.mp member
    exact plain.isName_goal (plain.inert_triple (inside triple found))
  have text : programs.makefile tree entries standards optimizations =
      heredoc (tree.header (order.map
          fun triple => (tree.ruleOf programs triple.2.1 triple.2.2 triple.1).goal) ++
        order.flatMap fun triple =>
          tree.block programs (programs.rules tree entries standards optimizations)
            (programs.target (path triple.2.1) triple.2.2 triple.1) (path triple.2.1)) := by
    rw [heredoc_append, heredoc_flatMap, Programs.makefile, goals, elements, List.flatMap_map]
  have written := List.rel_append (writes_header plain named) (writes_blocks plain inside)
  rw [text, Make.read_heredoc written (assemble_header tree _ _), Tree.generalRules,
    List.cons_append, List.cons_append, List.cons_append, List.nil_append, List.mapM_cons,
    List.mapM_cons, List.mapM_cons, expanded_cleaning plain, expanded_rules plain inside]
  rfl

end Plain

/-- The makefile builds one executable for each test, standard and optimization, from the test and
the library, with the flags of that optimization alone; other rules are `all`, `build` and `clean`.
Standards and optimizations may be given more than once. -/
theorem makefile_builds (programs : Programs) (tree : Tree) (entries : List FileName)
    (standards optimizations : List (List Char))
    (plain : tree.Plain programs entries standards optimizations)
    (stems : ((entries.filter accepted).map stem).Nodup) :
    ∃ rules : List Make.Rule,
      Make.read (programs.makefile tree entries standards optimizations) =
        some (tree.generalRules (rules.map Make.Rule.goal) ++ rules) ∧
      (∀ name ∈ entries, accepted name = true → ∀ standard ∈ standards,
        ∀ optimization ∈ defaulted optimizations,
        Make.Builds (tree.generalRules (rules.map Make.Rule.goal) ++ rules) ['b', 'u', 'i', 'l', 'd']
          (tree.ruleOf programs name standard optimization)) ∧
      rules.length = (entries.filter accepted).length * standards.dedup.length *
        (defaulted optimizations).dedup.length := by
  obtain ⟨order, distinct, members, elements⟩ := entries_targets plain.keptNames
    plain.keptStandards plain.keptOptimizations plain.dotFree stems
  let rules := order.map fun triple => tree.ruleOf programs triple.2.1 triple.2.2 triple.1
  have read := read_makefile plain (fun triple => (members triple).mp) elements
  refine ⟨rules, by rw [List.map_map]; exact read, ?_, ?_⟩
  · intro name inEntries acceptable standard inStandards optimization inOptimizations
    have member : (optimization, name, standard) ∈ triples entries standards optimizations :=
      mem_triples_iff.mpr
        ⟨inOptimizations, List.mem_filter.mpr ⟨inEntries, acceptable⟩, inStandards⟩
    have given : tree.ruleOf programs name standard optimization ∈ rules :=
      List.mem_map.mpr ⟨_, (members _).mpr member, rfl⟩
    have slashed : '/' ∈ (tree.ruleOf programs name standard optimization).goal := by
      simp [Tree.ruleOf, Tree.goal]
    constructor
    · exact ⟨_, List.mem_append_left _ (List.mem_cons_of_mem _ List.mem_cons_self), rfl,
        List.mem_map_of_mem given⟩
    · exact List.mem_append_right _ given
    · intro other inRules same
      rcases List.mem_append.mp inRules with general | inRules
      · exact absurd (same ▸ slashed) (slash_notMem_generalRules general)
      · obtain ⟨triple, inOrder, rfl⟩ := List.mem_map.mp inRules
        rw [goal_ruleOf_injective plain stems ((members triple).mp inOrder) member same]
  · rw [List.length_map]
    exact length_of_triples stems.of_map distinct members

/-- The tree of the repository under `/`, on the host `h`. -/
def Tree.rooted : Tree where
  cc := [['g', '+', '+'], ['-', 'p', 't', 'h', 'r', 'e', 'a', 'd']]
  configuration := ['a', 'l', 'l']
  hostname := ['h', '\n']
  realpath words := '/' :: words.flatten ++ ['\n']
  ls := heredoc [['s', 'r', 'c', '/', 'b', '.', 'c', 'c'], ['s', 'r', 'c', '/', 'p', '.', 'c', 'c']]

/-- Two tests under two standards and two optimizations, one of them given twice. -/
theorem makefile_builds_matrix :
    ∃ rules : List Make.Rule, Make.read (Programs.unmatched.makefile .rooted
        [fileACc, hiddenCc, fileBCpp] [cpp14, cpp17] [enlightened, ['O', '2'], enlightened]) =
        some (Tree.rooted.generalRules (rules.map Make.Rule.goal) ++ rules) ∧
      Make.Builds (Tree.rooted.generalRules (rules.map Make.Rule.goal) ++ rules)
        ['b', 'u', 'i', 'l', 'd'] (Tree.rooted.ruleOf .unmatched fileBCpp cpp17 ['O', '2']) ∧
      rules.length = 8 := by
  have plain : Tree.rooted.Plain Programs.unmatched [fileACc, hiddenCc, fileBCpp] [cpp14, cpp17]
      [enlightened, ['O', '2'], enlightened] :=
    ⟨by decide, by decide, by decide, by decide, by decide, by decide, by decide⟩
  obtain ⟨rules, read, builds, length⟩ := makefile_builds .unmatched .rooted
    [fileACc, hiddenCc, fileBCpp] [cpp14, cpp17] [enlightened, ['O', '2'], enlightened] plain
    (by decide)
  exact ⟨rules, read, builds _ (by decide) (by decide) _ (by decide) _ (by decide), length⟩

end Libpreempt.TestMatrix

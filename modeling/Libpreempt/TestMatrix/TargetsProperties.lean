import Mathlib.Data.List.Dedup
import Mathlib.Data.List.ProdSigma
import Libpreempt.TestMatrix.Targets

/-! Which tests have elements of their own in `Targets`. -/

set_option autoImplicit false

namespace Libpreempt.TestMatrix

open Libpreempt.Shell

/-!
## Names of tests
-/

theorem takeWhile_reverse {separator : Char} (before : List Char) {after : List Char}
    (absent : separator ∉ after) :
    (before ++ separator :: after).reverse.takeWhile (· ≠ separator) = after.reverse := by
  have kept : ∀ c ∈ after.reverse, decide (c ≠ separator) = true := by
    intro c member
    simpa using fun same : c = separator => absent (same ▸ List.mem_reverse.mp member)
  rw [List.reverse_append, List.reverse_cons, List.append_assoc,
    List.takeWhile_append_of_pos kept, List.singleton_append,
    List.takeWhile_cons_of_neg (by simp), List.append_nil]

theorem dropWhile_reverse {separator : Char} {before after : List Char}
    (absent : separator ∉ after) :
    (before ++ separator :: after).reverse.dropWhile (· ≠ separator) =
      separator :: before.reverse := by
  have kept : ∀ c ∈ after.reverse, decide (c ≠ separator) = true := by
    intro c member
    simpa using fun same : c = separator => absent (same ▸ List.mem_reverse.mp member)
  rw [List.reverse_append, List.reverse_cons, List.append_assoc,
    List.dropWhile_append_of_pos kept, List.singleton_append, List.dropWhile_cons_of_neg (by simp)]

/-- A test is a stem and an extension. -/
theorem accepted_shape {name : FileName} (acceptable : accepted name = true) :
    ∃ extension, (extension = ['c', 'p', 'p'] ∨ extension = ['c', 'c']) ∧
      name.text = stem name ++ '.' :: extension ∧ stem name ≠ [] := by
  simp only [accepted, Bool.and_eq_true, Bool.not_eq_true', Bool.or_eq_true,
    accepts_suffix_iff] at acceptable
  obtain ⟨visible, ending⟩ := acceptable
  have split : ∃ before extension, (extension = ['c', 'p', 'p'] ∨ extension = ['c', 'c']) ∧
      name.text = before ++ '.' :: extension := by
    rcases ending with suffix | suffix
    · obtain ⟨before, shape⟩ := suffix
      exact ⟨before, _, .inl rfl, shape.symm⟩
    · obtain ⟨before, shape⟩ := suffix
      exact ⟨before, _, .inr rfl, shape.symm⟩
  obtain ⟨before, extension, known, shape⟩ := split
  have dotFree : '.' ∉ extension := by
    rcases known with rfl | rfl
    · decide
    · decide
  have stemmed : stem name = before := by
    rw [stem, shape, dropWhile_reverse dotFree, List.drop_one, List.tail_cons,
      List.reverse_reverse]
  refine ⟨extension, known, stemmed ▸ shape, ?_⟩
  rw [stemmed]
  rintro rfl
  simp [shape] at visible

theorem afterLastDot_of_shape (before : List Char) {extension : List Char} (dotFree : '.' ∉ extension) :
    afterLastDot (before ++ '.' :: extension) = extension := by
  rw [afterLastDot, takeWhile_reverse before dotFree, List.reverse_reverse]

theorem removeSuffix_append {before suffix : List Char} (some : before ≠ []) :
    removeSuffix suffix (before ++ suffix) = before := by
  have proper : suffix ≠ before ++ suffix := by
    intro same
    exact some (by simpa using same)
  rw [removeSuffix, if_pos ⟨List.suffix_append .., proper⟩]
  simp

theorem keeps_unblank {globbing : Globbing} {word : Word} (kept : globbing.Keeps word) :
    ∀ c ∈ word, blank c = false :=
  (splitWords_eq_self_iff.mp kept.unsplit).2

theorem mem_path_of_stem {name : FileName} (acceptable : accepted name = true) {c : Char}
    (member : c ∈ stem name) : c ∈ path name := by
  obtain ⟨extension, _, shape, _⟩ := accepted_shape acceptable
  rw [path, shape]
  simp [member]

variable {programs : Programs}

theorem ext_path (programs : Programs) {name : FileName} (acceptable : accepted name = true) :
    programs.unquoted (ext (path name)) = [ext (path name)] ∧
      name.text = stem name ++ ext (path name) := by
  obtain ⟨extension, known, shape, _⟩ := accepted_shape acceptable
  have whole : path name = (inDir ++ '/' :: stem name) ++ '.' :: extension := by
    rw [path, shape]
    simp
  rcases known with rfl | rfl
  · have suffix : ext (path name) = ['.', 'c', 'p', 'p'] := by
      rw [ext, whole, afterLastDot_of_shape _ (by decide), if_pos rfl]
    rw [suffix]
    exact ⟨(Globbing.keeps_of_all (by decide) rfl).unquoted, shape⟩
  · have suffix : ext (path name) = ['.', 'c', 'c'] := by
      rw [ext, whole, afterLastDot_of_shape _ (by decide), if_neg (by decide), if_neg (by decide),
        if_pos rfl]
    rw [suffix]
    exact ⟨(Globbing.keeps_of_all (by decide) rfl).unquoted, shape⟩

theorem getTargetBasename_of_keeps {name : FileName} (standard optimization : Word)
    (acceptable : accepted name = true) (kept : programs.Keeps (path name)) :
    programs.getTargetBasename [path name, standard, optimization] =
      stem name ++ '.' :: standard ++ '.' :: optimization := by
  obtain ⟨_, _, _, some⟩ := accepted_shape acceptable
  obtain ⟨plain, whole⟩ := ext_path programs acceptable
  have basename : programs.basename [path name, ext (path name)] = stem name := by
    have suffixed := programs.basename_suffix inDir name (ext (path name)) (by decide)
    rw [whole, removeSuffix_append some, ← whole] at suffixed
    exact suffixed
  have unblank : substitute (stem name) = stem name :=
    substitute_of_unblank fun c member => keeps_unblank kept c (mem_path_of_stem acceptable member)
  simp only [Programs.getTargetBasename, List.getElem?_cons_zero, List.getElem?_cons_succ,
    Option.getD_some, kept.unquoted, plain, List.singleton_append, basename, unblank]

theorem target_of_keeps {name : FileName} {standard optimization : Word}
    (acceptable : accepted name = true) (kept : programs.Keeps (path name))
    (keptStandard : programs.Keeps standard) (keptOptimization : programs.Keeps optimization) :
    programs.target (path name) standard optimization =
      stem name ++ '.' :: standard ++ '.' :: optimization := by
  rw [Programs.target, kept.unquoted, keptStandard.unquoted, keptOptimization.unquoted]
  refine (congrArg substitute (getTargetBasename_of_keeps standard optimization acceptable kept)).trans ?_
  apply substitute_of_unblank
  intro c member
  simp only [List.append_assoc, List.cons_append, List.mem_append, List.mem_cons] at member
  rcases member with inStem | rfl | inStandard | rfl | inOptimization
  · exact keeps_unblank kept c (mem_path_of_stem acceptable inStem)
  · rfl
  · exact keeps_unblank keptStandard c inStandard
  · rfl
  · exact keeps_unblank keptOptimization c inOptimization

theorem eq_of_append_dot {before after : List Char} {left right : Word} (leftFree : '.' ∉ left)
    (rightFree : '.' ∉ right) (same : before ++ '.' :: left = after ++ '.' :: right) :
    before = after ∧ left = right := by
  have words : left = right := by
    rw [← afterLastDot_of_shape before leftFree, same, afterLastDot_of_shape after rightFree]
  subst words
  exact ⟨List.append_cancel_right same, rfl⟩

/-!
## The loops
-/

theorem targets_eq_assign (programs : Programs) (entries : List FileName)
    (standards optimizations : List (List Char)) :
    programs.targets entries standards optimizations =
      AssociativeArray.assign ∅
        (((defaulted optimizations).flatMap programs.unquoted).flatMap fun optimization =>
          ((programs.tests entries).flatMap programs.unquoted).flatMap fun test =>
            (standards.flatMap programs.unquoted).map fun standard =>
              (programs.target test standard optimization, test)) := by
  simp only [Programs.targets, AssociativeArray.assign, List.foldl_flatMap, List.foldl_map]

theorem tests_of_keeps {entries : List FileName}
    (kept : ∀ name ∈ entries.filter accepted, programs.Keeps (path name)) :
    programs.tests entries = (entries.filter accepted).map path := by
  have lines : splitWords (findTests entries) = (entries.filter accepted).map path := by
    have each : findTests entries = heredoc ((entries.filter accepted).map path) := by
      rw [findTests, heredoc, List.flatMap_map]
    rw [each]
    apply splitWords_heredoc
    intro word member
    obtain ⟨name, found, rfl⟩ := List.mem_map.mp member
    exact (kept name found).unsplit
  rw [Programs.tests, Globbing.unquoted, lines, List.flatMap_map,
    List.flatMap_congr fun name found => (kept name found).unexpanded]
  exact List.map_eq_flatMap.symm

/-- The triples, in the order of the loops. -/
def triples (entries : List FileName) (standards optimizations : List (List Char)) :
    List (List Char × FileName × List Char) :=
  defaulted optimizations ×ˢ entries.filter accepted ×ˢ standards

theorem mem_triples_iff {entries : List FileName} {standards optimizations : List (List Char)}
    {triple : List Char × FileName × List Char} :
    triple ∈ triples entries standards optimizations ↔
      triple.1 ∈ defaulted optimizations ∧ triple.2.1 ∈ entries.filter accepted ∧
        triple.2.2 ∈ standards := by
  obtain ⟨optimization, name, standard⟩ := triple
  rw [triples, List.mem_product, List.mem_product]

theorem length_of_triples {entries : List FileName} {standards optimizations : List (List Char)}
    (distinctNames : (entries.filter accepted).Nodup)
    {order : List (List Char × FileName × List Char)} (distinct : order.Nodup)
    (members : ∀ triple, triple ∈ order ↔ triple ∈ triples entries standards optimizations) :
    order.length = (entries.filter accepted).length * standards.dedup.length *
      (defaulted optimizations).dedup.length := by
  have once : ((defaulted optimizations).dedup ×ˢ entries.filter accepted ×ˢ
      standards.dedup).Nodup :=
    (List.nodup_dedup _).product (distinctNames.product (List.nodup_dedup _))
  have same : order.Perm ((defaulted optimizations).dedup ×ˢ entries.filter accepted ×ˢ
      standards.dedup) := by
    refine (List.perm_ext_iff_of_nodup distinct once).mpr fun triple => ?_
    obtain ⟨optimization, name, standard⟩ := triple
    rw [members, mem_triples_iff, List.mem_product, List.mem_product, List.mem_dedup,
      List.mem_dedup]
  rw [same.length_eq, List.length_product, List.length_product, Nat.mul_comm]

section Kept

variable {entries : List FileName} {standards optimizations : List (List Char)}
  (keptNames : ∀ name ∈ entries.filter accepted, programs.Keeps (path name))
  (keptStandards : ∀ standard ∈ standards, programs.Keeps standard)
  (keptOptimizations : ∀ optimization ∈ defaulted optimizations, programs.Keeps optimization)

include keptNames keptStandards keptOptimizations

theorem targets_of_keeps :
    programs.targets entries standards optimizations =
      AssociativeArray.assign ∅ ((triples entries standards optimizations).map
        fun triple => (programs.target (path triple.2.1) triple.2.2 triple.1, path triple.2.1)) := by
  have keptPaths : ∀ word ∈ (entries.filter accepted).map path, programs.Keeps word := by
    intro word member
    obtain ⟨name, found, rfl⟩ := List.mem_map.mp member
    exact keptNames name found
  rw [targets_eq_assign, tests_of_keeps keptNames, flatMap_unquoted_of_keeps keptPaths,
    flatMap_unquoted_of_keeps keptStandards, flatMap_unquoted_of_keeps keptOptimizations]
  simp only [triples, SProd.sprod, List.product, List.map_flatMap, List.map_map, List.flatMap_map]
  rfl

theorem target_triple {triple : List Char × FileName × List Char}
    (member : triple ∈ triples entries standards optimizations) :
    programs.target (path triple.2.1) triple.2.2 triple.1 =
      stem triple.2.1 ++ '.' :: triple.2.2 ++ '.' :: triple.1 := by
  obtain ⟨inOptimizations, inTests, inStandards⟩ := mem_triples_iff.mp member
  exact target_of_keeps (List.mem_filter.mp inTests).2 (keptNames _ inTests)
    (keptStandards _ inStandards) (keptOptimizations _ inOptimizations)

theorem target_injective (stems : ((entries.filter accepted).map stem).Nodup)
    (dotFree : ∀ word ∈ standards ++ defaulted optimizations, '.' ∉ word)
    {left right : List Char × FileName × List Char}
    (inLeft : left ∈ triples entries standards optimizations)
    (inRight : right ∈ triples entries standards optimizations)
    (same : programs.target (path left.2.1) left.2.2 left.1 =
      programs.target (path right.2.1) right.2.2 right.1) : left = right := by
  rw [target_triple keptNames keptStandards keptOptimizations inLeft,
    target_triple keptNames keptStandards keptOptimizations inRight] at same
  obtain ⟨leftOptimization, leftTest, leftStandard⟩ := mem_triples_iff.mp inLeft
  obtain ⟨rightOptimization, rightTest, rightStandard⟩ := mem_triples_iff.mp inRight
  obtain ⟨heads, optimizationsEqual⟩ := eq_of_append_dot
    (dotFree _ (List.mem_append_right _ leftOptimization))
    (dotFree _ (List.mem_append_right _ rightOptimization)) same
  obtain ⟨stemsEqual, standardsEqual⟩ := eq_of_append_dot
    (dotFree _ (List.mem_append_left _ leftStandard))
    (dotFree _ (List.mem_append_left _ rightStandard)) heads
  have namesEqual := List.inj_on_of_nodup_map stems leftTest rightTest stemsEqual
  exact Prod.ext optimizationsEqual (Prod.ext namesEqual standardsEqual)

/-- The elements of `Targets` in the order in which they lie there. -/
theorem entries_targets (dotFree : ∀ word ∈ standards ++ defaulted optimizations, '.' ∉ word)
    (stems : ((entries.filter accepted).map stem).Nodup) :
    ∃ order : List (List Char × FileName × List Char), order.Nodup ∧
      (∀ triple, triple ∈ order ↔ triple ∈ triples entries standards optimizations) ∧
      (programs.targets entries standards optimizations).entries = order.map fun triple =>
        ⟨programs.target (path triple.2.1) triple.2.2 triple.1, path triple.2.1⟩ := by
  rw [targets_of_keeps keptNames keptStandards keptOptimizations]
  exact AssociativeArray.exists_order_assign fun left inLeft right inRight =>
    target_injective keptNames keptStandards keptOptimizations stems dotFree inLeft inRight

theorem oneEach_of_keeps (distinctEntries : entries.Nodup) (distinctStandards : standards.Nodup)
    (distinctOptimizations : (defaulted optimizations).Nodup)
    (dotFree : ∀ word ∈ standards ++ defaulted optimizations, '.' ∉ word)
    (stems : ((entries.filter accepted).map stem).Nodup) :
    programs.OneEach entries standards optimizations := by
  have injective : ∀ left ∈ triples entries standards optimizations,
      ∀ right ∈ triples entries standards optimizations,
      programs.target (path left.2.1) left.2.2 left.1 =
        programs.target (path right.2.1) right.2.2 right.1 → left = right :=
    fun left inLeft right inRight => target_injective keptNames keptStandards keptOptimizations
      stems dotFree inLeft inRight
  constructor
  · intro name inEntries acceptable standard inStandards optimization inOptimizations
    have member : (optimization, name, standard) ∈ triples entries standards optimizations :=
      mem_triples_iff.mpr
        ⟨inOptimizations, List.mem_filter.mpr ⟨inEntries, acceptable⟩, inStandards⟩
    have placed := List.mem_map_of_mem (f := fun triple : List Char × FileName × List Char =>
      (programs.target (path triple.2.1) triple.2.2 triple.1, path triple.2.1)) member
    rw [targets_of_keeps keptNames keptStandards keptOptimizations]
    refine AssociativeArray.lookup_assign ?_ placed ∅
    intro left inLeft right inRight same
    obtain ⟨first, firstTriple, rfl⟩ := List.mem_map.mp inLeft
    obtain ⟨second, secondTriple, rfl⟩ := List.mem_map.mp inRight
    rw [injective first firstTriple second secondTriple same]
  · intro name inEntries acceptable other otherEntries otherAcceptable standard inStandards
      otherStandard otherStandards optimization inOptimizations otherOptimization
      otherOptimizations same
    have equal := injective (optimization, name, standard)
      (mem_triples_iff.mpr
        ⟨inOptimizations, List.mem_filter.mpr ⟨inEntries, acceptable⟩, inStandards⟩)
      (otherOptimization, other, otherStandard)
      (mem_triples_iff.mpr
        ⟨otherOptimizations, List.mem_filter.mpr ⟨otherEntries, otherAcceptable⟩,
          otherStandards⟩) same
    simp only [Prod.mk.injEq] at equal
    exact ⟨equal.2.1, equal.2.2, equal.1⟩
  · obtain ⟨order, distinct, members, elements⟩ :=
      entries_targets keptNames keptStandards keptOptimizations dotFree stems
    have counted := length_of_triples (distinctEntries.filter _) distinct members
    rw [distinctStandards.dedup, distinctOptimizations.dedup] at counted
    rw [elements, List.length_map, counted]

end Kept

theorem oneEach_of_nil (programs : Programs) {entries : List FileName}
    {standards optimizations : List (List Char)}
    (none : entries.filter accepted = [] ∨ standards = []) :
    programs.OneEach entries standards optimizations := by
  have absent : ∀ name ∈ entries, accepted name = true → ∀ standard, standard ∉ standards := by
    intro name inEntries acceptable standard inStandards
    rcases none with noTests | noStandards
    · exact List.not_mem_nil (noTests ▸ List.mem_filter.mpr ⟨inEntries, acceptable⟩)
    · exact List.not_mem_nil (noStandards ▸ inStandards)
  have never {Item Value : Type} (items : List Item) :
      items.flatMap (fun _ => ([] : List Value)) = [] :=
    List.flatMap_eq_nil_iff.mpr fun _ _ => rfl
  have empty : programs.targets entries standards optimizations = ∅ := by
    rw [targets_eq_assign]
    rcases none with noTests | noStandards
    · have noPaths : programs.tests entries = [] := by
        simp [Programs.tests, findTests, noTests, Globbing.unquoted, splitWords]
      simp [noPaths, never, AssociativeArray.assign]
    · simp [noStandards, never, AssociativeArray.assign]
  constructor
  · intro name inEntries acceptable standard inStandards
    exact absurd inStandards (absent name inEntries acceptable standard)
  · intro name inEntries acceptable other _ _ standard inStandards
    exact absurd inStandards (absent name inEntries acceptable standard)
  · rw [empty]
    rcases none with noTests | noStandards
    · simp [noTests]
    · simp [noStandards]

/-!
## Tests that are lost
-/

theorem mem_findTests_plain {entries : List FileName}
    (plain : ∀ name ∈ entries, ∀ c ∈ name.text, special c = false) :
    ∀ c ∈ findTests entries, special c = false := by
  intro c member
  obtain ⟨name, found, inLine⟩ := List.mem_flatMap.mp member
  rcases List.mem_append.mp inLine with inPath | newline
  · rcases List.mem_append.mp inPath with inDirectory | inName
    · have directory : ∀ c ∈ inDir, special c = false := by simp [inDir, special]
      exact directory c inDirectory
    · rcases List.mem_cons.mp inName with rfl | inText
      · rfl
      · exact plain name (List.mem_filter.mp found).1 c inText
  · rw [List.mem_singleton.mp newline]
    rfl

/-- No blank survives the splitting, in whatever name it was. -/
theorem unblank_of_lookup {entries : List FileName} {standards optimizations : List (List Char)}
    (plain : ∀ name ∈ entries, ∀ c ∈ name.text, special c = false) {key : List Char} {test : Word}
    (held : (programs.targets entries standards optimizations).lookup key = some test) :
    ∀ c ∈ test, blank c = false := by
  rw [targets_eq_assign] at held
  have assigned := (AssociativeArray.mem_of_lookup_assign held).resolve_right
    (by rw [AList.lookup_empty]; exact Option.some_ne_none test ∘ Eq.symm)
  obtain ⟨optimization, _, inTests⟩ := List.mem_flatMap.mp assigned
  obtain ⟨value, inValues, inStandards⟩ := List.mem_flatMap.mp inTests
  obtain ⟨standard, _, same⟩ := List.mem_map.mp inStandards
  obtain rfl : value = test := congrArg Prod.snd same
  obtain ⟨word, inWords, split⟩ := List.mem_flatMap.mp inValues
  have outputPlain := mem_findTests_plain plain
  rw [Programs.tests, Globbing.unquoted_of_plain outputPlain] at inWords
  have wordPlain : ∀ c ∈ word, special c = false :=
    fun c inside => outputPlain c ((mem_splitWords inWords).2 c inside).2
  rw [Globbing.unquoted_of_plain wordPlain] at split
  exact fun c inside => ((mem_splitWords split).2 c inside).1

theorem defaulted_nodup {optimizations : List (List Char)} (distinct : optimizations.Nodup) :
    (defaulted optimizations).Nodup := by
  rw [defaulted]
  split
  · exact List.nodup_singleton _
  · exact distinct

theorem mem_defaulted {optimizations : List (List Char)} {word : List Char}
    (member : word ∈ defaulted optimizations) :
    word = ['d', 'e', 'f', 'a', 'u', 'l', 't'] ∨ word ∈ optimizations := by
  rw [defaulted] at member
  split at member
  · exact .inl (List.mem_singleton.mp member)
  · exact .inr member

theorem exists_mem_defaulted (optimizations : List (List Char)) :
    ∃ word, word ∈ defaulted optimizations := by
  cases optimizations with
  | nil => exact ⟨_, List.mem_cons_self⟩
  | cons word words => exact ⟨word, List.mem_cons_self⟩

theorem keeps_defaulted {optimizations : List (List Char)}
    (kept : ∀ word ∈ optimizations, programs.Keeps word) :
    ∀ word ∈ defaulted optimizations, programs.Keeps word := by
  intro word member
  rcases mem_defaulted member with rfl | member
  · exact Globbing.keeps_of_all (by decide) rfl
  · exact kept word member

/-- A test that has an element kept its name in the splitting. -/
theorem keeps_of_maps {entries : List FileName} {standards optimizations : List (List Char)}
    (plain : ∀ name ∈ entries, ∀ c ∈ name.text, special c = false) {name : FileName}
    (found : name ∈ entries.filter accepted) {key : List Char}
    (held : (programs.targets entries standards optimizations).lookup key = some (path name)) :
    programs.Keeps (path name) := by
  refine Globbing.keeps_of_plain (by simp [path]) (unblank_of_lookup plain held) ?_
  intro c inside
  exact mem_findTests_plain plain c
    (List.mem_flatMap.mpr ⟨name, found, List.mem_append_left _ inside⟩)

theorem separate_of_oneEach {entries : List FileName} {standards optimizations : List (List Char)}
    (distinctEntries : entries.Nodup)
    (plain : ∀ name ∈ entries, ∀ c ∈ name.text, special c = false)
    (words : ∀ word ∈ standards ++ optimizations,
      word ≠ [] ∧ ∀ c ∈ word, blank c = false ∧ special c = false)
    (law : programs.OneEach entries standards optimizations) :
    Separate programs entries standards optimizations := by
  by_cases noTests : entries.filter accepted = []
  · exact .inl noTests
  by_cases noStandards : standards = []
  · exact .inr (.inl noStandards)
  obtain ⟨standard, inStandards⟩ := List.exists_mem_of_ne_nil _ noStandards
  obtain ⟨optimization, inOptimizations⟩ := exists_mem_defaulted optimizations
  have keptWords : ∀ word ∈ standards ++ optimizations, programs.Keeps word := by
    intro word member
    obtain ⟨nonempty, letters⟩ := words word member
    exact Globbing.keeps_of_plain nonempty (fun c inside => (letters c inside).1)
      fun c inside => (letters c inside).2
  have keptStandards : ∀ word ∈ standards, programs.Keeps word :=
    fun word member => keptWords word (List.mem_append_left _ member)
  have keptOptimizations : ∀ word ∈ defaulted optimizations, programs.Keeps word :=
    keeps_defaulted fun word member => keptWords word (List.mem_append_right _ member)
  have keptNames : ∀ name ∈ entries.filter accepted, programs.Keeps (path name) := by
    intro name found
    obtain ⟨inEntries, acceptable⟩ := List.mem_filter.mp found
    exact keeps_of_maps plain found
      (law.maps name inEntries acceptable standard inStandards optimization inOptimizations)
  refine .inr (.inr ⟨keptNames, keptStandards, keptOptimizations, ?_⟩)
  refine (distinctEntries.filter _).map_on ?_
  -- Two tests of one stem would have one target.
  intro name found other otherFound same
  obtain ⟨inEntries, acceptable⟩ := List.mem_filter.mp found
  obtain ⟨otherEntries, otherAcceptable⟩ := List.mem_filter.mp otherFound
  refine (law.different name inEntries acceptable other otherEntries otherAcceptable standard
    inStandards standard inStandards optimization inOptimizations optimization inOptimizations
    ?_).1
  rw [target_of_keeps acceptable (keptNames name found) (keptStandards standard inStandards)
      (keptOptimizations optimization inOptimizations),
    target_of_keeps otherAcceptable (keptNames other otherFound)
      (keptStandards standard inStandards) (keptOptimizations optimization inOptimizations), same]

/-- Separate names are enough; where no name is a pattern and the standards and
optimizations are plain words, they are also necessary. -/
theorem targets_one_each (programs : Programs) (entries : List FileName)
    (standards optimizations : List (List Char)) (distinctEntries : entries.Nodup)
    (distinctStandards : standards.Nodup) (distinctOptimizations : optimizations.Nodup)
    (dotFree : ∀ word ∈ standards ++ optimizations, '.' ∉ word) :
    (Separate programs entries standards optimizations →
      programs.OneEach entries standards optimizations) ∧
    ((∀ name ∈ entries, ∀ c ∈ name.text, special c = false) →
      (∀ word ∈ standards ++ optimizations,
        word ≠ [] ∧ ∀ c ∈ word, blank c = false ∧ special c = false) →
      (programs.OneEach entries standards optimizations ↔
        Separate programs entries standards optimizations)) := by
  have enough : Separate programs entries standards optimizations →
      programs.OneEach entries standards optimizations := by
    rintro (noTests | noStandards | ⟨keptNames, keptStandards, keptOptimizations, stems⟩)
    · exact oneEach_of_nil programs (.inl noTests)
    · exact oneEach_of_nil programs (.inr noStandards)
    · refine oneEach_of_keeps keptNames keptStandards keptOptimizations distinctEntries
        distinctStandards (defaulted_nodup distinctOptimizations) ?_ stems
      intro word member
      rcases List.mem_append.mp member with inStandards | inOptimizations
      · exact dotFree word (List.mem_append_left _ inStandards)
      · rcases mem_defaulted inOptimizations with rfl | inOptimizations
        · decide
        · exact dotFree word (List.mem_append_right _ inOptimizations)
  exact ⟨enough, fun plain words => ⟨separate_of_oneEach distinctEntries plain words, enough⟩⟩

/-- No pattern matches a file. -/
def Programs.unmatched : Programs where
  expand word := [word]
  expand_plain _ _ := rfl
  basename
    | [path] => (path.reverse.takeWhile (· ≠ '/')).reverse
    | [path, suffix] => removeSuffix suffix (path.reverse.takeWhile (· ≠ '/')).reverse
    | _ => []
  basename_suffix directory name suffix _ := by
    have last := takeWhile_reverse directory name.noSlash
    simp only [last, List.reverse_reverse]

def fileACc : FileName := ⟨['a', '.', 'c', 'c'], by decide, by decide⟩

def fileACpp : FileName := ⟨['a', '.', 'c', 'p', 'p'], by decide, by decide⟩

def fileBCpp : FileName := ⟨['b', '.', 'c', 'p', 'p'], by decide, by decide⟩

def hiddenCc : FileName := ⟨['_', 'b', '.', 'c', 'c'], by decide, by decide⟩

def cpp14 : List Char := ['c', '+', '+', '1', '4']

def cpp17 : List Char := ['c', '+', '+', '1', '7']

/-- Two tests under two standards and two optimizations. -/
theorem targets_one_each_matrix :
    Programs.unmatched.OneEach [fileACc, hiddenCc, fileBCpp] [cpp14, cpp17]
      [['O', '2'], ['O', 's']] := by
  have unsplit : (∀ name ∈ [fileACc, hiddenCc, fileBCpp].filter accepted,
        splitWords (path name) = [path name]) ∧
      (∀ word ∈ [cpp14, cpp17], splitWords word = [word]) ∧
      ∀ word ∈ defaulted [['O', '2'], ['O', 's']], splitWords word = [word] := by decide
  have separate : Separate Programs.unmatched [fileACc, hiddenCc, fileBCpp] [cpp14, cpp17]
      [['O', '2'], ['O', 's']] :=
    .inr (.inr ⟨fun name found => ⟨unsplit.1 name found, rfl⟩,
      fun word member => ⟨unsplit.2.1 word member, rfl⟩,
      fun word member => ⟨unsplit.2.2 word member, rfl⟩, by decide⟩)
  have exactly := (targets_one_each .unmatched [fileACc, hiddenCc, fileBCpp] [cpp14, cpp17]
    [['O', '2'], ['O', 's']] (by decide) (by decide) (by decide) (by decide)).2
    (by simp [fileACc, hiddenCc, fileBCpp, special]) (by simp [cpp14, cpp17, blank, special])
  exact exactly.mpr separate

/-- `a.cc` and `a.cpp` have the target `a.c++14.default` both. -/
theorem targets_lost_test : ¬ Programs.unmatched.OneEach [fileACc, fileACpp] [cpp14] [] := by
  intro law
  have same := law.different fileACc (by decide) (by decide) fileACpp (by decide) (by decide)
    cpp14 (by decide) cpp14 (by decide) ['d', 'e', 'f', 'a', 'u', 'l', 't'] (by decide)
    ['d', 'e', 'f', 'a', 'u', 'l', 't'] (by decide) (by decide)
  exact absurd same.1 (by decide)

end Libpreempt.TestMatrix

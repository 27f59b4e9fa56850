import Libpreempt.Make.Makefile
import Libpreempt.TestMatrix.Arguments
import Libpreempt.TestMatrix.Targets

/-! The array `Rules1` of `testmatrix.sh`, and the makefile that it writes from
its arrays. -/

set_option autoImplicit false

namespace Libpreempt.TestMatrix

open Libpreempt.Shell

def releaseFlags : List Word :=
  [['-', 'D', 'N', 'D', 'E', 'B', 'U', 'G'], ['-', 'W', 'e', 'r', 'r', 'o', 'r']]

/-- `Flags`, which is emptied for each optimization; `enlightened` falls through to `release`. -/
def Programs.flags (programs : Programs) (optimization : Word) : List Word :=
  if optimization = ['d', 'e', 'f', 'a', 'u', 'l', 't'] then []
  else if optimization = debug then
    [['-', 'O', 'g'], ['-', 'g', 'g', 'd', 'b'], ['-', 'p', 'e', 'd', 'a', 'n', 't', 'i', 'c']]
  else if Pattern.accepts [.char 'O', .star] optimization then
    programs.unquoted ('-' :: optimization)
  else if optimization = profile then
    [['-', 'f', 'p', 'r', 'o', 'f', 'i', 'l', 'e', '-', 'a', 'r', 'c', 's'],
      ['-', 'f', 't', 'e', 's', 't', '-', 'c', 'o', 'v', 'e', 'r', 'a', 'g', 'e'],
      ['-', 'l', 'g', 'c', 'o', 'v']]
  else if optimization = enlightened then
    [['-', 'f', 'l', 't', 'o'],
      ['-', 'f', 'n', 'o', '-', 'f', 'a', 't', '-', 'l', 't', 'o', '-', 'o', 'b', 'j', 'e', 'c', 't',
        's']] ++ releaseFlags
  else if optimization = release then releaseFlags
  else []

/-- What the script finds besides: `CC`, `Configuration`, and what three programs print. -/
structure Tree where
  cc : List Word
  configuration : List Char
  hostname : List Char
  realpath : List Word → List Char
  /-- `ls src/*.cc` -/
  ls : List Char

variable (programs : Programs) (tree : Tree)

def Tree.march : List Char := substitute tree.hostname ++ '-' :: tree.configuration

def buildDir : List Char := ['b', 'u', 'i', 'l', 'd']

def Tree.includeDir : List Char :=
  substitute (tree.realpath [['i', 'n', 'c', 'l', 'u', 'd', 'e']])

/-- `"${CC[@]} -std=$Standard ${Flags[@]} -I$(realpath include) -o "` -/
def Tree.compileTo (standard : Word) (flags : List Word) : List Char :=
  spaced tree.cc ++ [' ', '-', 's', 't', 'd', '='] ++ standard ++ ' ' :: spaced flags ++
    [' ', '-', 'I'] ++ tree.includeDir ++ [' ', '-', 'o', ' ']

/-- The element of `Rules1`, with `\$@ \$^` at its end. -/
def Tree.compile (standard : Word) (flags : List Word) : List Char :=
  tree.compileTo standard flags ++ ['$', '@', ' ', '$', '^']

def Programs.rules (entries : List FileName) (standards optimizations : List (List Char)) :
    AssociativeArray (List Char) (List Char) :=
  ((defaulted optimizations).flatMap programs.unquoted).foldl (fun rules optimization =>
    let flags := programs.flags optimization
    ((programs.tests entries).flatMap programs.unquoted).foldl (fun rules test =>
      (standards.flatMap programs.unquoted).foldl (fun rules standard =>
        rules.insert (programs.target test standard optimization) (tree.compile standard flags))
        rules) rules) ∅

/-!
## The makefile
-/

/-- `-*- mode:makefile; eval:(auto-revert-mode); -*-` -/
def modeline : List Char :=
  [' ', '-', '*', '-', ' ', 'm', 'o', 'd', 'e', ':', 'm', 'a', 'k', 'e', 'f', 'i', 'l', 'e', ';',
    ' ', 'e', 'v', 'a', 'l', ':', '(', 'a', 'u', 't', 'o', '-', 'r', 'e', 'v', 'e', 'r', 't',
    '-', 'm', 'o', 'd', 'e', ')', ';', ' ', '-', '*', '-']

/-- `Paths are relative to directory` -/
def relative : List Char :=
  [' ', 'P', 'a', 't', 'h', 's', ' ', 'a', 'r', 'e', ' ', 'r', 'e', 'l', 'a', 't', 'i', 'v', 'e',
    ' ', 't', 'o', ' ', 'd', 'i', 'r', 'e', 'c', 't', 'o', 'r', 'y']

/-- `$March/$Target` -/
def Tree.goal (target : List Char) : List Char := tree.march ++ '/' :: target

/-- The array `x` behind the loop over `$(ls src/*.cc)`. -/
def Tree.sources : List Word :=
  (programs.unquoted (substitute tree.ls)).flatMap fun f =>
    programs.unquoted (substitute (tree.realpath [f]))

/-- `rm -fr ${March}/` -/
def Tree.cleaning : List Char := ['r', 'm', ' ', '-', 'f', 'r', ' '] ++ tree.march ++ ['/']

/-- `@mkdir -p ${March}/` -/
def Tree.making : List Char :=
  ['@', 'm', 'k', 'd', 'i', 'r', ' ', '-', 'p', ' '] ++ tree.march ++ ['/']

/-- The first heredoc; `goals` is the array `x`. -/
def Tree.header (goals : List (List Char)) : List (List Char) :=
  ['#' :: modeline,
    '#' :: relative,
    ['#', ' ', ' ', ' ', ' '] ++ substitute (tree.realpath [buildDir]),
    [],
    ['a', 'l', 'l', ':', ' ', 'b', 'u', 'i', 'l', 'd'],
    [],
    ['b', 'u', 'i', 'l', 'd', ':', ' '] ++ spaced goals,
    [],
    ['c', 'l', 'e', 'a', 'n', ':', ';', ' '] ++ tree.cleaning,
    []]

/-- The heredoc of one target. An unset element is empty, and the array `Rules2` has none that is
set. -/
def Tree.block (rules : AssociativeArray (List Char) (List Char)) (target test : List Char) :
    List (List Char) :=
  [tree.goal target ++ ':' :: ' ' :: (substitute (tree.realpath (programs.unquoted test)) ++
      ' ' :: spaced (tree.sources programs)),
    '\t' :: tree.making,
    '\t' :: (rules.lookup target).getD [],
    '\t' :: []]

def Programs.makefile (entries : List FileName) (standards optimizations : List (List Char)) :
    List Char :=
  let targets := programs.targets entries standards optimizations
  let rules := programs.rules tree entries standards optimizations
  heredoc (tree.header (targets.keys.map tree.goal)) ++
    targets.entries.flatMap fun element =>
      heredoc (tree.block programs rules element.1 element.2)

/-!
## Plain names
-/

/-- Every name and every path stands for itself, in the makefile and in its commands. -/
structure Tree.Plain (entries : List FileName) (standards optimizations : List (List Char)) :
    Prop where
  march : Make.isName tree.march = true ∧ '/' ∉ tree.march
  cc : ∀ word ∈ tree.cc, ∀ c ∈ word, Make.inert c = true
  buildDir : ∀ c ∈ substitute (tree.realpath [buildDir]), Make.inert c = true
  includeDir : ∀ c ∈ tree.includeDir, Make.inert c = true
  tests : ∀ name ∈ entries.filter accepted, (∀ c ∈ name.text, Make.inert c = true) ∧
    Make.isName (substitute (tree.realpath [path name])) = true
  sources : ∀ f ∈ programs.unquoted (substitute tree.ls),
    Make.isName (substitute (tree.realpath [f])) = true
  words : ∀ word ∈ standards ++ optimizations,
    word ≠ [] ∧ ∀ c ∈ word, Make.inert c = true ∧ c ≠ '.' ∧ c ≠ '/'

/-- The rules that do not depend on the tests; `goals` are the executables. -/
def Tree.generalRules (goals : List (List Char)) : List Make.Rule :=
  [⟨['a', 'l', 'l'], [['b', 'u', 'i', 'l', 'd']], []⟩, ⟨['b', 'u', 'i', 'l', 'd'], goals, []⟩,
    ⟨['c', 'l', 'e', 'a', 'n'], [], [tree.cleaning]⟩]

/-- The rule that an executable should have. -/
def Tree.ruleOf (name : FileName) (standard optimization : Word) : Make.Rule :=
  let goal := tree.goal (stem name ++ '.' :: standard ++ '.' :: optimization)
  let prerequisites := substitute (tree.realpath [path name]) :: tree.sources programs
  { goal := goal
    prerequisites := prerequisites
    recipe := [tree.making,
      tree.compileTo standard (programs.flags optimization) ++ goal ++
        ' ' :: spaced prerequisites.eraseDups,
      []] }

end Libpreempt.TestMatrix

import Libpreempt.Shell.AssociativeArray
import Libpreempt.Shell.Pattern
import Libpreempt.Shell.Words

/-! The array `Targets` of `testmatrix.sh`: one element for each test, standard
and optimization. All expansions in its loops are unquoted. -/

set_option autoImplicit false

namespace Libpreempt.TestMatrix

open Libpreempt.Shell

/-- The name of a directory entry. -/
structure FileName where
  text : List Char
  nonempty : text ≠ []
  noSlash : '/' ∉ text
deriving DecidableEq

/-- What `basename NAME SUFFIX` makes of the last part of `NAME`. -/
def removeSuffix (suffix name : List Char) : List Char :=
  if suffix <:+ name ∧ suffix ≠ name then name.take (name.length - suffix.length) else name

/-- What the script finds on the system: the files that patterns match, and the
program `basename`. -/
structure Programs extends Globbing where
  basename : List Word → List Char
  basename_suffix : ∀ (directory : List Char) (name : FileName) (suffix : Word),
    directory.head? ≠ some '-' →
    basename [directory ++ '/' :: name.text, suffix] = removeSuffix suffix name.text

def inDir : List Char := ['t', 'e', 's', 't', 's']

def path (name : FileName) : List Char := inDir ++ '/' :: name.text

/-- `-not -name '[._]*' -and \( -name '*.cpp' -o -name '*.cc' \)` -/
def accepted (name : FileName) : Bool :=
  !Pattern.accepts [.bracket [('.', '.'), ('_', '_')], .star] name.text &&
    (Pattern.accepts (.star :: Pattern.literal ['.', 'c', 'p', 'p']) name.text ||
      Pattern.accepts (.star :: Pattern.literal ['.', 'c', 'c']) name.text)

/-- The output of `find`, one path a line. -/
def findTests (entries : List FileName) : List Char :=
  (entries.filter accepted).flatMap fun name => path name ++ ['\n']

/-- `${cpptest##*.}` -/
def afterLastDot (text : List Char) : List Char := (text.reverse.takeWhile (· ≠ '.')).reverse

def ext (cpptest : Word) : Word :=
  if afterLastDot cpptest = ['c', 'p', 'p'] then ['.', 'c', 'p', 'p']
  else if afterLastDot cpptest = ['c', 'x', 'x'] then ['.', 'c', 'x', 'x']
  else if afterLastDot cpptest = ['c', 'c'] then ['.', 'c', 'c']
  else []

/-- An empty array `Optimizations` is replaced by `('default')`. -/
def defaulted (optimizations : List (List Char)) : List (List Char) :=
  if optimizations.isEmpty then [['d', 'e', 'f', 'a', 'u', 'l', 't']] else optimizations

namespace Programs

variable (programs : Programs)

/-- The body of the function with its positional parameters. -/
def getTargetBasename (parameters : List Word) : List Char :=
  let cpptest := parameters[0]?.getD []
  let std := parameters[1]?.getD []
  let opt := parameters[2]?.getD []
  substitute (programs.basename (programs.unquoted cpptest ++ programs.unquoted (ext cpptest))) ++
    '.' :: std ++ '.' :: opt

/-- `$(get_target_basename $Test $Standard $Optimization)` -/
def target (test standard optimization : List Char) : List Char :=
  substitute (programs.getTargetBasename
    (programs.unquoted test ++ programs.unquoted standard ++ programs.unquoted optimization))

def tests (entries : List FileName) : List Word := programs.unquoted (findTests entries)

def targets (entries : List FileName) (standards optimizations : List (List Char)) :
    AssociativeArray (List Char) Word :=
  ((defaulted optimizations).flatMap programs.unquoted).foldl (fun targets optimization =>
    ((programs.tests entries).flatMap programs.unquoted).foldl (fun targets test =>
      (standards.flatMap programs.unquoted).foldl (fun targets standard =>
        targets.insert (programs.target test standard optimization) test) targets) targets) ∅

/-- Each triple has an element of its own, which holds the path of the test. -/
structure OneEach (entries : List FileName) (standards optimizations : List (List Char)) :
    Prop where
  maps : ∀ name ∈ entries, accepted name = true → ∀ standard ∈ standards,
    ∀ optimization ∈ defaulted optimizations,
    (programs.targets entries standards optimizations).lookup
      (programs.target (path name) standard optimization) = some (path name)
  different : ∀ name ∈ entries, accepted name = true → ∀ other ∈ entries, accepted other = true →
    ∀ standard ∈ standards, ∀ otherStandard ∈ standards,
    ∀ optimization ∈ defaulted optimizations, ∀ otherOptimization ∈ defaulted optimizations,
    programs.target (path name) standard optimization =
      programs.target (path other) otherStandard otherOptimization →
    name = other ∧ standard = otherStandard ∧ optimization = otherOptimization
  size : (programs.targets entries standards optimizations).entries.length =
    (entries.filter accepted).length * standards.length * (defaulted optimizations).length

end Programs

/-- The name without its extension. -/
def stem (name : FileName) : List Char := ((name.text.reverse.dropWhile (· ≠ '.')).drop 1).reverse

/-- Every name stays a word of its own, and no two tests differ in the extension alone. -/
def Separate (programs : Programs) (entries : List FileName)
    (standards optimizations : List (List Char)) : Prop :=
  let found := entries.filter accepted
  found = [] ∨ standards = [] ∨
    (∀ name ∈ found, programs.Keeps (path name)) ∧ (∀ standard ∈ standards, programs.Keeps standard) ∧
      (∀ optimization ∈ defaulted optimizations, programs.Keeps optimization) ∧
      (found.map stem).Nodup

end Libpreempt.TestMatrix

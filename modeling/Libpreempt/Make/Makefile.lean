import Libpreempt.Shell.Words

/-! Makefiles as texts. Only lines whose meaning for `make` is the plain one are
read: names and commands consist of characters that stand for themselves, and
of the two automatic variables `$@` and `$^`. -/

set_option autoImplicit false

namespace Libpreempt.Make

open Libpreempt.Shell

/-- Neither `make` nor a shell takes the character for anything else. -/
def inert (c : Char) : Bool := c.isAlphanum || ['_', '+', '-', '.', '/'].contains c

/-- A hyphen in front makes an option or a library of a name, a dot a special target. -/
def isName (text : List Char) : Bool :=
  text.all inert && text.head?.any fun c => c != '-' && c != '.'

/-- A line, with the prerequisites of a rule or with the command that stands behind its `;`. -/
inductive Line where
  | blank
  | comment (text : List Char)
  | rule (goal : List Char) (prerequisites : List (List Char))
  | inline (goal command : List Char)
  | recipe (text : List Char)
deriving DecidableEq

structure Rule where
  goal : List Char
  prerequisites : List (List Char)
  recipe : List (List Char)
deriving DecidableEq, Repr

/-!
## Written
-/

inductive Spells : Line → List Char → Prop where
  | blank : Spells .blank []
  | comment {text : List Char} : text.getLast? ≠ some '\\' → Spells (.comment text) ('#' :: text)
  | rule {goal text : List Char} {prerequisites : List (List Char)} : isName goal = true →
      splitWords text = prerequisites → (∀ word ∈ prerequisites, isName word = true) →
      Spells (.rule goal prerequisites) (goal ++ ':' :: ' ' :: text)
  | inline {goal command : List Char} : isName goal = true →
      (∀ c ∈ command, inert c = true ∨ c = ' ') → command.head? ≠ some ' ' →
      Spells (.inline goal command) (goal ++ ':' :: ';' :: ' ' :: command)
  | recipe (text : List Char) : Spells (.recipe text) ('\t' :: text)

/-- The text is one line, and stands for `line`. -/
structure Writes (line : Line) (text : List Char) : Prop where
  unbroken : '\n' ∉ text
  spells : Spells line text

def Rule.lines (rule : Rule) : List Line :=
  .rule rule.goal rule.prerequisites :: rule.recipe.map .recipe

/-!
## Read
-/

/-- A line that begins with a name. -/
def readRule (text : List Char) : Option Line :=
  let goal := text.takeWhile (· != ':')
  if isName goal then
    match text.dropWhile (· != ':') with
    | ':' :: ';' :: command =>
        if command.all fun c => inert c || c == ' ' then
          some (.inline goal (command.dropWhile (· == ' ')))
        else none
    | ':' :: prerequisites =>
        if (splitWords prerequisites).all isName then
          some (.rule goal (splitWords prerequisites))
        else none
    | _ => none
  else none

/-- A backslash continues the line. -/
def readLine : List Char → Option Line
  | [] => some .blank
  | '#' :: text => if text.getLast? = some '\\' then none else some (.comment text)
  | '\t' :: text => some (.recipe text)
  | text => readRule text

/-- The lines of a recipe belong to the rule above them; the first component has none. -/
def assemble : List Line → List (List Char) × List Rule
  | [] => ([], [])
  | line :: lines =>
      let (recipe, rules) := assemble lines
      match line with
      | .blank => (recipe, rules)
      | .comment _ => (recipe, rules)
      | .rule goal prerequisites => ([], ⟨goal, prerequisites, recipe⟩ :: rules)
      | .inline goal command => ([], ⟨goal, [], command :: recipe⟩ :: rules)
      | .recipe text => (text :: recipe, rules)

/-- Stands for itself in a recipe. -/
def calm (c : Char) : Bool := inert c || [' ', '@', '='].contains c

/-- `$@` is the goal, and `$^` are the prerequisites, each once. -/
def Rule.expand (rule : Rule) : List Char → Option (List Char)
  | [] => some []
  | '$' :: '@' :: text => (rule.expand text).map (rule.goal ++ ·)
  | '$' :: '^' :: text => (rule.expand text).map (spaced rule.prerequisites.eraseDups ++ ·)
  | c :: text => if calm c then (rule.expand text).map (c :: ·) else none

def Rule.expanded (rule : Rule) : Option Rule :=
  (rule.recipe.mapM rule.expand).map fun recipe => { rule with recipe := recipe }

/-- The rules of a makefile, with their commands. -/
def read (text : List Char) : Option (List Rule) := do
  let lines ← (text.splitOn '\n').mapM readLine
  match assemble lines with
  | ([], rules) => rules.mapM Rule.expanded
  | _ => none

/-- The first goal asks for what `rule` makes, and there is no other rule for that. -/
structure Builds (rules : List Rule) (goal : List Char) (rule : Rule) : Prop where
  asked : ∃ top ∈ rules, top.goal = goal ∧ rule.goal ∈ top.prerequisites
  given : rule ∈ rules
  only : ∀ other ∈ rules, other.goal = rule.goal → other = rule

end Libpreempt.Make

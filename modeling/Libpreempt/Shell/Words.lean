import Mathlib.Data.List.Basic

/-! What becomes of an unquoted expansion: it is split at blanks, and each word
is expanded to the names of files that it matches. -/

set_option autoImplicit false

namespace Libpreempt.Shell

abbrev Word := List Char

-- only the characters that are there, and not all values of `Char`, are looked at
instance decidableLetters (property : Char → Prop) [DecidablePred property] (text : List Char) :
    Decidable (∀ c ∈ text, property c) := List.decidableBAll property text

/-- The characters of the default `IFS`. -/
def blank (c : Char) : Bool := c == ' ' || c == '\t' || c == '\n'

/-- The characters that make a word a pattern. -/
def special (c : Char) : Bool := c == '*' || c == '?' || c == '[' || c == '\\'

def splitWords (text : List Char) : List Word := (text.splitOnP blank).filter (· ≠ [])

/-- The words of an array in a text. -/
def spaced (words : List Word) : List Char := List.intercalate [' '] words

def heredoc (lines : List (List Char)) : List Char := lines.flatMap fun line => line ++ ['\n']

/-- The trailing newlines of a command substitution are removed. -/
def substitute (text : List Char) : List Char := (text.reverse.dropWhile (· == '\n')).reverse

/-- Pathname expansion in some directory. -/
structure Globbing where
  expand : Word → List Word
  expand_plain : ∀ word, (∀ c ∈ word, special c = false) → expand word = [word]

def Globbing.unquoted (globbing : Globbing) (text : List Char) : List Word :=
  (splitWords text).flatMap globbing.expand

/-- Neither splitting nor expansion changes the word. -/
structure Globbing.Keeps (globbing : Globbing) (word : Word) : Prop where
  unsplit : splitWords word = [word]
  unexpanded : globbing.expand word = [word]

/-!
## Splitting
-/

theorem splitWords_of_unblank {word : Word} (nonempty : word ≠ [])
    (unblank : ∀ c ∈ word, blank c = false) : splitWords word = [word] := by
  simp [splitWords, List.splitOnP_eq_singleton unblank, nonempty]

theorem splitWords_append {separator : Char} (separates : blank separator = true)
    (text rest : List Char) :
    splitWords (text ++ separator :: rest) = splitWords text ++ splitWords rest := by
  rw [splitWords, List.splitOnP_append_cons text rest separates, List.filter_append]
  rfl

theorem mem_splitOnP {Element : Type*} {separates : Element → Bool} {elements : List Element}
    {piece : List Element} (member : piece ∈ elements.splitOnP separates) :
    ∀ element ∈ piece, separates element = false ∧ element ∈ elements := by
  induction elements generalizing piece with
  | nil =>
      obtain rfl : piece = [] := by simpa using member
      simp
  | cons first elements ih =>
      have later : ∀ piece ∈ elements.splitOnP separates, ∀ element ∈ piece,
          separates element = false ∧ element ∈ first :: elements := by
        intro piece member element inside
        obtain ⟨kept, present⟩ := ih member element inside
        exact ⟨kept, List.mem_cons_of_mem first present⟩
      rw [List.splitOnP_cons_eq_if_modifyHead] at member
      split at member
      · rcases List.mem_cons.mp member with rfl | member
        · simp
        · exact later piece member
      · next joins =>
          obtain ⟨head, tail, shape⟩ :=
            List.exists_cons_of_ne_nil (List.splitOnP_ne_nil separates elements)
          rw [shape] at later
          rw [shape, List.modifyHead_cons] at member
          rcases List.mem_cons.mp member with rfl | member
          · intro element inside
            rcases List.mem_cons.mp inside with rfl | inside
            · exact ⟨by simpa using joins, List.mem_cons_self⟩
            · exact later head List.mem_cons_self element inside
          · exact later piece (List.mem_cons_of_mem head member)

theorem mem_splitWords {text : List Char} {word : Word} (member : word ∈ splitWords text) :
    word ≠ [] ∧ ∀ c ∈ word, blank c = false ∧ c ∈ text := by
  obtain ⟨piece, some⟩ := List.mem_filter.mp member
  exact ⟨by simpa using some, mem_splitOnP piece⟩

theorem splitWords_eq_self_iff {word : Word} :
    splitWords word = [word] ↔ word ≠ [] ∧ ∀ c ∈ word, blank c = false := by
  constructor
  · intro whole
    obtain ⟨nonempty, unblank⟩ :=
      mem_splitWords (show word ∈ splitWords word by rw [whole]; exact List.mem_singleton_self _)
    exact ⟨nonempty, fun c inside => (unblank c inside).1⟩
  · exact fun ⟨nonempty, unblank⟩ => splitWords_of_unblank nonempty unblank

/-- One word a line is read back as the words. -/
theorem splitWords_heredoc {words : List Word}
    (unsplit : ∀ word ∈ words, splitWords word = [word]) :
    splitWords (heredoc words) = words := by
  induction words with
  | nil => rfl
  | cons word words ih =>
      have rest := ih fun later member => unsplit later (List.mem_cons_of_mem word member)
      rw [heredoc, List.flatMap_cons, ← heredoc, List.append_assoc, List.singleton_append,
        splitWords_append rfl, unsplit word List.mem_cons_self, rest]
      rfl

theorem splitWords_spaced {words : List Word}
    (unsplit : ∀ word ∈ words, splitWords word = [word]) : splitWords (spaced words) = words := by
  induction words with
  | nil => rfl
  | cons word words ih =>
      have rest := ih fun later member => unsplit later (List.mem_cons_of_mem word member)
      cases words with
      | nil =>
          rw [spaced, List.intercalate_singleton]
          exact unsplit word List.mem_cons_self
      | cons second words =>
          rw [spaced, List.intercalate_cons_cons, List.append_assoc, List.singleton_append,
            splitWords_append rfl, unsplit word List.mem_cons_self, ← spaced, rest]
          rfl

theorem mem_spaced {words : List Word} {c : Char} (inside : c ∈ spaced words) :
    c = ' ' ∨ ∃ word ∈ words, c ∈ word := by
  induction words with
  | nil => cases inside
  | cons word words ih =>
      cases words with
      | nil => exact .inr ⟨word, List.mem_cons_self, by simpa [spaced] using inside⟩
      | cons second words =>
          rw [spaced, List.intercalate_cons_cons, ← spaced, List.append_assoc] at inside
          rcases List.mem_append.mp inside with first | later
          · exact .inr ⟨word, List.mem_cons_self, first⟩
          · rcases List.mem_cons.mp later with separator | later
            · exact .inl separator
            · rcases ih later with separator | ⟨other, member, present⟩
              · exact .inl separator
              · exact .inr ⟨other, List.mem_cons_of_mem word member, present⟩

theorem heredoc_append (lines others : List (List Char)) :
    heredoc (lines ++ others) = heredoc lines ++ heredoc others := List.flatMap_append

theorem heredoc_flatMap {Item : Type} (lines : Item → List (List Char)) (items : List Item) :
    heredoc (items.flatMap lines) = items.flatMap fun item => heredoc (lines item) :=
  List.flatMap_assoc

/-!
## Pathname expansion
-/

variable {globbing : Globbing}

theorem Globbing.Keeps.unquoted {word : Word} (kept : globbing.Keeps word) :
    globbing.unquoted word = [word] := by
  rw [Globbing.unquoted, kept.unsplit, List.flatMap_singleton, kept.unexpanded]

theorem Globbing.keeps_of_plain {word : Word} (nonempty : word ≠ [])
    (unblank : ∀ c ∈ word, blank c = false) (plain : ∀ c ∈ word, special c = false) :
    globbing.Keeps word :=
  ⟨splitWords_of_unblank nonempty unblank, globbing.expand_plain word plain⟩

theorem Globbing.keeps_of_all {word : Word} (nonempty : word ≠ [])
    (letters : word.all (fun c => !blank c && !special c) = true) : globbing.Keeps word := by
  have each : ∀ c ∈ word, blank c = false ∧ special c = false := by simpa using letters
  exact keeps_of_plain nonempty (fun c inside => (each c inside).1) fun c inside => (each c inside).2

theorem Globbing.unquoted_of_plain {text : List Char} (plain : ∀ c ∈ text, special c = false) :
    globbing.unquoted text = splitWords text := by
  have each : ∀ word ∈ splitWords text, globbing.expand word = [word] := by
    intro word member
    exact globbing.expand_plain word fun c inside => plain c ((mem_splitWords member).2 c inside).2
  rw [Globbing.unquoted, List.flatMap_congr each]
  exact List.flatMap_singleton' _

theorem flatMap_unquoted_of_keeps {words : List Word}
    (kept : ∀ word ∈ words, globbing.Keeps word) : words.flatMap globbing.unquoted = words := by
  rw [List.flatMap_congr fun word member => (kept word member).unquoted]
  exact List.flatMap_singleton' _

/-!
## Command substitution
-/

theorem substitute_of_unblank {text : List Char} (unblank : ∀ c ∈ text, blank c = false) :
    substitute text = text := by
  rw [substitute]
  cases shape : text.reverse with
  | nil => exact (List.reverse_eq_nil_iff.mp shape).symm
  | cons last before =>
      have kept : (last == '\n') = false := by
        have letter := unblank last (List.mem_reverse.mp (shape ▸ List.mem_cons_self))
        simp only [blank, Bool.or_eq_false_iff] at letter
        exact letter.2
      rw [List.dropWhile_cons_of_neg (by simp [kept]), ← shape, List.reverse_reverse]

end Libpreempt.Shell

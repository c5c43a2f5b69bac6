import GrammarWorkbench.Diagram.Dot

/-!
# Literals in the text of a graph

A literal ends at the first quotation mark that no backslash takes with it.  The marks of a label
come after a backslash each, so a label ends where its text does, and it says what it was made from.
Nor is there a line end in a label, so a line with a label is one line.
-/

namespace GrammarWorkbench.Dot

/-! ## Reading a literal -/

/--
What stands before the quotation mark that ends a literal, and what stands behind it.  A backslash
takes the next character with it.
-/
def scan : List Char → Option (List Char × List Char)
  | [] => none
  | '"' :: rest => some ([], rest)
  | '\\' :: taken :: rest =>
      (scan rest).map fun (inside, behind) => ('\\' :: taken :: inside, behind)
  | first :: rest => (scan rest).map fun (inside, behind) => (first :: inside, behind)

/-- What a character means behind a backslash. -/
def meant : Char → Option Char
  | '\\' => some '\\'
  | '"' => some '"'
  | 'n' => some '\n'
  | 't' => some '\t'
  | 'r' => some '\r'
  | _ => none

/-- What a literal says. -/
def unescape : List Char → Option (List Char)
  | [] => some []
  | ['\\'] => none
  | '\\' :: char :: rest => do return (← meant char) :: (← unescape rest)
  | first :: rest => (unescape rest).map (first :: ·)

/-- A line around its first literal. -/
structure Literal where
  before : String
  text : String
  after : String
  deriving DecidableEq, Repr

def literal? (line : List Char) : Option Literal :=
  match line.dropWhile (· != '"') with
  | [] => none
  | _ :: rest => do
      let (inside, behind) ← scan rest
      let text ← unescape inside
      return ⟨String.ofList (line.takeWhile (· != '"')), String.ofList text, String.ofList behind⟩

/-! ## Labels as literals -/

variable {char : Char} {text rest : List Char}

/-- A character stands as it is in a label, or a backslash tells which one is meant. -/
theorem labelChar_cases (char : Char) :
    (labelChar char = [char] ∧ char ≠ '\\' ∧ char ≠ '"' ∧ char ≠ '\n') ∨
    ∃ sign, labelChar char = ['\\', sign] ∧ meant sign = some char ∧ sign ≠ '\n' := by
  unfold labelChar
  split
  · exact .inr ⟨'\\', rfl, rfl, by decide⟩
  · exact .inr ⟨'"', rfl, rfl, by decide⟩
  · exact .inr ⟨'n', rfl, rfl, by decide⟩
  · exact .inr ⟨'t', rfl, rfl, by decide⟩
  · exact .inr ⟨'r', rfl, rfl, by decide⟩
  · exact .inl ⟨rfl, ‹_›, ‹_›, ‹_›⟩

theorem labelChars_cons (char : Char) (text : List Char) :
    labelChars (char :: text) = labelChar char ++ labelChars text :=
  rfl

/-- The quotation mark behind a label ends its literal. -/
theorem scan_labelChars (text rest : List Char) :
    scan (labelChars text ++ '"' :: rest) = some (labelChars text, rest) := by
  induction text with
  | nil => rfl
  | cons char text ih =>
      obtain ⟨same, noSlash, noQuote, _⟩ | ⟨sign, escaped, _, _⟩ := labelChar_cases char
      · rw [labelChars_cons, same, List.singleton_append, List.cons_append,
          scan.eq_4 _ _ noQuote (fun _ _ slash _ => noSlash slash), ih]
        rfl
      · have taken : ∀ behind, ['\\', sign] ++ behind = '\\' :: sign :: behind := fun _ => rfl
        rw [labelChars_cons, escaped, List.append_assoc, taken, scan.eq_3, ih]
        rfl

/-- A doubled backslash takes no quotation mark with it. -/
example : scan (labelChars "a\\".toList ++ '"' :: "];".toList) =
    some ("a\\\\".toList, "];".toList) := by
  decide

/-- A label says what it was made from. -/
theorem unescape_labelChars (text : List Char) : unescape (labelChars text) = some text := by
  induction text with
  | nil => rfl
  | cons char text ih =>
      obtain ⟨same, noSlash, _, _⟩ | ⟨sign, escaped, means, _⟩ := labelChar_cases char
      · rw [labelChars_cons, same, List.singleton_append,
          unescape.eq_4 _ _ (fun slash _ => noSlash slash) (fun _ _ slash _ => noSlash slash), ih]
        rfl
      · have taken : ∀ behind, ['\\', sign] ++ behind = '\\' :: sign :: behind := fun _ => rfl
        rw [labelChars_cons, escaped, taken, unescape.eq_3, means, ih]
        rfl

theorem newline_not_mem_labelChars (text : List Char) : '\n' ∉ labelChars text := by
  intro member
  obtain ⟨char, _, inside⟩ := List.mem_flatMap.mp member
  obtain ⟨same, _, _, other⟩ | ⟨sign, escaped, _, other⟩ := labelChar_cases char
  · rw [same, List.mem_singleton] at inside
    exact other inside.symm
  · rw [escaped] at inside
    simp [Ne.symm other] at inside

/-- The first literal of a line reads back. -/
theorem literal?_label {before : String} (front : '"' ∉ before.toList) (text after : String) :
    literal? (before ++ "\"" ++ label text ++ "\"" ++ after).toList =
      some ⟨before, text, after⟩ := by
  have stops : ∀ char ∈ before.toList, (char != '"') = true := by
    intro char member
    exact bne_iff_ne.mpr fun same => front (same ▸ member)
  have line : (before ++ "\"" ++ label text ++ "\"" ++ after).toList =
      before.toList ++ '"' :: (labelChars text.toList ++ '"' :: after.toList) := by
    simp [label]
  rw [line, literal?, List.dropWhile_append_of_pos stops, List.takeWhile_append_of_pos stops]
  simp [scan_labelChars, unescape_labelChars]

/-! ## Labels by replacement -/

/-- Every occurrence of a character is replaced. -/
def replaced (char : Char) (sign : List Char) (text : List Char) : List Char :=
  text.flatMap fun other => if other = char then sign else [other]

/-- Backslashes are doubled before the others bring new ones in. -/
theorem labelChars_eq_replaced (text : List Char) : labelChars text =
    replaced '\r' ['\\', 'r'] (replaced '\t' ['\\', 't'] (replaced '\n' ['\\', 'n']
      (replaced '"' ['\\', '"'] (replaced '\\' ['\\', '\\'] text)))) := by
  induction text with
  | nil => rfl
  | cons char text ih =>
      rw [labelChars_cons, ih]
      simp only [replaced, List.flatMap_cons, List.flatMap_append]
      congr 1
      unfold labelChar
      split
      · rfl
      · rfl
      · rfl
      · rfl
      · rfl
      · simp_all

end GrammarWorkbench.Dot

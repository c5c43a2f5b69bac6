import Mathlib.Data.List.Basic

/-!
# Replaced characters

Some characters are replaced by texts, one after the other, each in the whole of what the ones
before it left.  Where no text brings in a character that is replaced later, this is the same as to
replace all of them at once.  The texts are read back from left to right if none of them is the
beginning of another one, and if each begins with a character that is replaced itself.
-/

namespace GrammarWorkbench.Text

/-- A character and the text that takes its places. -/
abbrev Replacement := Char × List Char

def replaceChar (entry : Replacement) (text : List Char) : List Char :=
  text.flatMap fun char => if char = entry.1 then entry.2 else [char]

/-- Replace one character after the other, each in the whole text. -/
def replaceInTurn (table : List Replacement) (text : List Char) : List Char :=
  table.foldl (fun written entry => replaceChar entry written) text

/-- What stands for a character if all are replaced at once. -/
def replaced : List Replacement → Char → List Char
  | [], char => [char]
  | entry :: rest, char => if char = entry.1 then entry.2 else replaced rest char

def replaceAtOnce (table : List Replacement) (text : List Char) : List Char :=
  text.flatMap (replaced table)

/-- Read the texts back behind so many characters that belong to the last one. -/
def restoreFrom (table : List Replacement) : Nat → List Char → List Char
  | _, [] => []
  | skipped + 1, _ :: rest => restoreFrom table skipped rest
  | 0, first :: rest =>
      match table.find? fun entry => entry.2.isPrefixOf (first :: rest) with
      | some entry => entry.1 :: restoreFrom table (entry.2.length - 1) rest
      | none => first :: restoreFrom table 0 rest

/-- Read the texts of a table back as its characters, from left to right. -/
def restore (table : List Replacement) (text : List Char) : List Char :=
  restoreFrom table 0 text

variable {table known : List Replacement} {char : Char} {text before after : List Char}

/-! ## In turn and at once -/

/-- A character is none of those that are replaced, or its text is in the table. -/
theorem replaced_cases (table : List Replacement) (char : Char) :
    (replaced table char = [char] ∧ ∀ entry ∈ table, entry.1 ≠ char) ∨
      (char, replaced table char) ∈ table := by
  induction table with
  | nil => exact .inl ⟨rfl, nofun⟩
  | cons entry rest ih =>
      by_cases same : char = entry.1
      · subst same
        refine .inr (List.mem_cons.mpr (.inl ?_))
        rw [replaced, if_pos rfl]
      · have behind : replaced (entry :: rest) char = replaced rest char := if_neg same
        rw [behind]
        obtain ⟨kept, others⟩ | member := ih
        · exact .inl ⟨kept, List.forall_mem_cons.mpr ⟨Ne.symm same, others⟩⟩
        · exact .inr (List.mem_cons_of_mem _ member)

theorem replaced_of_ne (others : ∀ entry ∈ table, entry.1 ≠ char) : replaced table char = [char] := by
  obtain ⟨kept, _⟩ | member := replaced_cases table char
  · exact kept
  · exact absurd rfl (others _ member)

theorem replaceAtOnce_cons (table : List Replacement) (first : Char) (rest : List Char) :
    replaceAtOnce table (first :: rest) = replaced table first ++ replaceAtOnce table rest :=
  List.flatMap_cons

/-- A text without the characters that are replaced stays as it is. -/
theorem replaceAtOnce_eq_self (absent : ∀ entry ∈ table, entry.1 ∉ text) :
    replaceAtOnce table text = text := by
  induction text with
  | nil => rfl
  | cons first rest ih =>
      have here : replaced table first = [first] := replaced_of_ne fun entry member same =>
        absent entry member (same ▸ List.mem_cons_self)
      rw [replaceAtOnce_cons, here, ih fun entry member later =>
        absent entry member (List.mem_cons_of_mem _ later)]
      rfl

/-- The order does not show if no text holds a character that is replaced after it. -/
theorem replaceInTurn_eq (apart : table.Pairwise fun earlier later => later.1 ∉ earlier.2)
    (text : List Char) : replaceInTurn table text = replaceAtOnce table text := by
  induction table generalizing text with
  | nil => exact (replaceAtOnce_eq_self fun _ member => absurd member List.not_mem_nil).symm
  | cons entry rest ih =>
      obtain ⟨here, later⟩ := List.pairwise_cons.mp apart
      have step : replaceInTurn (entry :: rest) text =
          replaceInTurn rest (replaceChar entry text) := rfl
      rw [step, ih later, replaceChar, replaceAtOnce, List.flatMap_assoc]
      refine List.flatMap_congr fun char _ => ?_
      rw [replaced]
      split
      · exact replaceAtOnce_eq_self here
      · exact List.flatMap_singleton _ char

/-- An ampersand that is replaced last takes the one of an earlier text with it. -/
example : replaceInTurn [('<', "&lt;".toList), ('&', "&amp;".toList)] ['<'] = "&amp;lt;".toList := by
  decide

/-! ## What is left of the characters -/

theorem not_mem_replaceAtOnce (special : ∃ entry ∈ table, entry.1 = char)
    (absent : ∀ entry ∈ table, char ∉ entry.2) (text : List Char) :
    char ∉ replaceAtOnce table text := by
  intro inside
  obtain ⟨first, _, here⟩ := List.mem_flatMap.mp inside
  obtain ⟨kept, others⟩ | member := replaced_cases table first
  · obtain ⟨entry, known, same⟩ := special
    rw [kept, List.mem_singleton] at here
    exact others entry known (same.trans here)
  · exact absent _ member here

/-- A character that only begins texts of the table begins the text in which it is found. -/
theorem mem_of_replaced_eq (special : ∃ entry ∈ table, entry.1 = char)
    (absent : ∀ entry ∈ table, char ∉ entry.2.tail) {first : Char}
    (split : replaced table first = before ++ char :: after) : (first, char :: after) ∈ table := by
  obtain ⟨kept, others⟩ | member := replaced_cases table first
  · obtain ⟨entry, inside, same⟩ := special
    have only : char ∈ [first] := kept ▸ split ▸ List.mem_append_right _ List.mem_cons_self
    exact absurd (same.trans (List.mem_singleton.mp only)) (others entry inside)
  · rw [split] at member
    cases before with
    | nil => exact member
    | cons head front =>
        exact absurd (List.mem_append_right front List.mem_cons_self) (absent _ member)

/-- Where such a character is left, a whole text of the table stands. -/
theorem exists_prefix_of_replaceAtOnce (special : ∃ entry ∈ table, entry.1 = char)
    (absent : ∀ entry ∈ table, char ∉ entry.2.tail)
    (split : replaceAtOnce table text = before ++ char :: after) :
    ∃ entry ∈ table, entry.2 <+: char :: after := by
  induction text generalizing before with
  | nil => simp [replaceAtOnce] at split
  | cons first rest ih =>
      rw [replaceAtOnce_cons] at split
      obtain ⟨between, rfl, later⟩ | ⟨between, here, behind⟩ := List.append_eq_append_iff.mp split
      · exact ih later
      · cases between with
        | nil =>
            have whole : replaceAtOnce table rest = [] ++ char :: after := behind.symm
            exact ih whole
        | cons next others =>
            obtain ⟨rfl, rfl⟩ := List.cons.inj behind
            exact ⟨_, mem_of_replaced_eq special absent here,
              List.prefix_append (char :: others) _⟩

/-! ## Reading back -/

/-- A reader who knows some texts reads back what is written with a table. -/
structure ReadsBack (known table : List Replacement) : Prop where
  listed : ∀ entry ∈ table, entry ∈ known
  unique : ∀ entry ∈ known, ∀ other ∈ known, entry.2 <+: other.2 → entry = other
  begun : ∀ entry ∈ known, ∃ other ∈ table, entry.2.head? = some other.1

theorem restoreFrom_length (table : List Replacement) (part rest : List Char) :
    restoreFrom table part.length (part ++ rest) = restoreFrom table 0 rest := by
  induction part with
  | nil => rfl
  | cons first part ih => exact ih

namespace ReadsBack

variable (back : ReadsBack known table)
include back

/-- It is enough to know the texts of the table. -/
theorem alone : ReadsBack table table where
  listed := fun _ member => member
  unique := fun entry member other there =>
    back.unique entry (back.listed entry member) other (back.listed other there)
  begun := fun entry member => back.begun entry (back.listed entry member)

theorem find?_of_ne (others : ∀ entry ∈ table, entry.1 ≠ char) (rest : List Char) :
    known.find? (fun entry => entry.2.isPrefixOf (char :: rest)) = none := by
  refine List.find?_eq_none.mpr fun entry member begins => ?_
  obtain ⟨other, inside, head⟩ := back.begun entry member
  obtain ⟨inner, shape⟩ := List.head?_eq_some_iff.mp head
  rw [List.isPrefixOf_iff_prefix, shape, List.cons_prefix_cons] at begins
  exact others other inside begins.1

theorem find?_of_mem {entry : Replacement} (member : entry ∈ table) (rest : List Char) :
    known.find? (fun other => other.2.isPrefixOf (entry.2 ++ rest)) = some entry := by
  have begins : entry.2.isPrefixOf (entry.2 ++ rest) = true :=
    List.isPrefixOf_iff_prefix.mpr (List.prefix_append _ _)
  cases found : known.find? fun other => other.2.isPrefixOf (entry.2 ++ rest) with
  | none => exact absurd begins (List.find?_eq_none.mp found entry (back.listed entry member))
  | some other =>
      have both := List.find?_some found
      rw [List.isPrefixOf_iff_prefix] at both
      have there := List.mem_of_find?_eq_some found
      -- Of two texts that a text begins with, one begins the other.
      obtain within | within := List.prefix_or_prefix_of_prefix both (List.prefix_append entry.2 rest)
      · rw [back.unique other there entry (back.listed entry member) within]
      · rw [back.unique entry (back.listed entry member) other there within]

/-- What stands for a character is read back as it, whatever stands behind. -/
theorem restoreFrom_replaced (char : Char) (rest : List Char) :
    restoreFrom known 0 (replaced table char ++ rest) = char :: restoreFrom known 0 rest := by
  obtain ⟨kept, others⟩ | member := replaced_cases table char
  · rw [kept, List.singleton_append, restoreFrom, back.find?_of_ne others]
  · have found := back.find?_of_mem member rest
    obtain ⟨_, _, head⟩ := back.begun _ (back.listed _ member)
    obtain ⟨inner, shape⟩ := List.head?_eq_some_iff.mp head
    dsimp only at found shape
    rw [shape, List.cons_append] at found ⊢
    rw [restoreFrom, found]
    dsimp only
    rw [List.length_cons, Nat.add_sub_cancel, restoreFrom_length]

theorem restore_replaceAtOnce (text : List Char) :
    restore known (replaceAtOnce table text) = text := by
  unfold restore
  induction text with
  | nil => rfl
  | cons first rest ih => rw [replaceAtOnce_cons, back.restoreFrom_replaced, ih]

end ReadsBack

end GrammarWorkbench.Text

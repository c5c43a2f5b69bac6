import GrammarWorkbench.Proofs.Text.Digits
import GrammarWorkbench.Proofs.Text.Entity
import GrammarWorkbench.Proofs.Text.Joined
import GrammarWorkbench.Report.Page

/-!
# Tags and the text behind them

A part of a page is a list of tags, each with the text up to the next one.  Text enters it with
entities only, so the marks of markup are those of the tags, and reading the part gives back the
tags with their texts as they were.
-/

namespace GrammarWorkbench.Report

/-- A tag and the text behind it, as it was before it entered the page. -/
structure Node where
  tag : String
  text : String
  deriving DecidableEq, Repr

def Node.written (node : Node) : String :=
  "<" ++ node.tag ++ ">" ++ entities node.text

/-- Nodes one behind the other. -/
def writtenNodes (nodes : List Node) : String :=
  String.join (nodes.map Node.written)

/-- Read a part of a page: a tag is between brackets, and behind it the entities are undone. -/
def readNodes (part : String) : List Node :=
  (part.toList.splitOn '<').tail.map fun piece =>
    ⟨String.ofList (piece.takeWhile (· != '>')),
      String.ofList (Text.plainChars .hexadecimal (piece.dropWhile (· != '>')).tail)⟩

/-- The characters of a text that mark markup, in their order. -/
def marks (text : String) : List Char :=
  text.toList.filter (· ∈ Text.markChars)

variable {nodes : List Node}

/-! ## Entities -/

theorem entities_append (left right : String) :
    entities (left ++ right) = entities left ++ entities right := by
  simp [entities, Text.markup]

/-- Text without special characters enters a page as it is. -/
theorem entities_eq_self {text : String} (plain : text.toList.all (· ∉ Text.entityChars) = true) :
    entities text = text := by
  have absent : ∀ char ∈ text.toList, char ∉ Text.entityChars := fun char member =>
    of_decide_eq_true (List.all_eq_true.mp plain char member)
  rw [entities, Text.markup, Text.markupChars_eq_self absent, String.ofList_toList]

theorem entities_repr (number : Int) : entities number.repr = number.repr := by
  have special : Text.entityChars.all (fun char => !char.isDigit && char != '-') = true := by
    decide
  refine entities_eq_self (List.all_eq_true.mpr fun char member => decide_eq_true fun inside => ?_)
  have outside := List.all_eq_true.mp special char inside
  rw [Bool.and_eq_true, Bool.not_eq_true', bne_iff_ne] at outside
  exact Text.not_mem_repr outside.1 outside.2 number member

theorem entities_natRepr (number : Nat) : entities number.repr = number.repr :=
  entities_repr number

/-! ## Marks -/

theorem marks_append (left right : String) :
    marks (left ++ right) = marks left ++ marks right := by
  simp [marks]

theorem marks_entities (text : String) : marks (entities text) = [] := by
  rw [marks, entities, Text.markup, String.toList_ofList]
  exact Text.filter_markupChars text.toList

/-- The marks of nodes are those of their tags. -/
theorem marks_writtenNodes (nodes : List Node) :
    marks (writtenNodes nodes) =
      (nodes.map Node.tag).flatMap fun tag => '<' :: (marks tag ++ ['>']) := by
  have opening : marks "<" = ['<'] := by decide
  have closing : marks ">" = ['>'] := by decide
  induction nodes with
  | nil => rfl
  | cons node rest ih =>
      have split : writtenNodes (node :: rest) = node.written ++ writtenNodes rest :=
        String.join_cons
      rw [split, marks_append, ih, Node.written, marks_append, marks_append, marks_append,
        marks_entities, opening, closing, List.map_cons, List.flatMap_cons]
      simp

/-! ## Reading -/

/-- The tag has no bracket of its own. -/
def Bare (tag : String) : Prop :=
  '<' ∉ tag.toList ∧ '>' ∉ tag.toList

instance (tag : String) : Decidable (Bare tag) :=
  inferInstanceAs (Decidable (_ ∧ _))

/-- A node behind the bracket that opens its tag. -/
def Node.piece (node : Node) : List Char :=
  node.tag.toList ++ '>' :: Text.markupChars .hexadecimal node.text.toList

theorem toList_writtenNodes (nodes : List Node) :
    (writtenNodes nodes).toList = nodes.flatMap fun node => '<' :: node.piece := by
  simp [writtenNodes, Node.written, Node.piece, entities, Text.markup, List.flatMap_map]

theorem splitOn_writtenNodes (bare : ∀ node ∈ nodes, Bare node.tag) :
    (writtenNodes nodes).toList.splitOn '<' = [] :: nodes.map Node.piece := by
  have joined : (writtenNodes nodes).toList = ['<'].intercalate ([] :: nodes.map Node.piece) := by
    rw [Text.intercalate_cons_flatMap, toList_writtenNodes, List.flatMap_map]
    rfl
  have absent : ∀ piece ∈ [] :: nodes.map Node.piece, '<' ∉ piece := by
    refine List.forall_mem_cons.mpr ⟨List.not_mem_nil, List.forall_mem_map.mpr ?_⟩
    intro node member inside
    rcases List.mem_append.mp inside with tag | behind
    · exact (bare node member).1 tag
    · cases List.mem_cons.mp behind with
      | inl bracket => exact absurd bracket (by decide)
      | inr text => exact Text.not_mem_markupChars (by decide) _ text
  rw [joined]
  exact List.splitOn_intercalate '<' absent (List.cons_ne_nil _ _)

/-- Nodes are read as they were written. -/
theorem readNodes_writtenNodes (bare : ∀ node ∈ nodes, Bare node.tag) :
    readNodes (writtenNodes nodes) = nodes := by
  rw [readNodes, splitOn_writtenNodes bare, List.tail_cons, List.map_map]
  refine (List.map_congr_left fun node member => ?_).trans (List.map_id nodes)
  have inTag : ∀ char ∈ node.tag.toList, (char != '>') = true := fun char inside =>
    bne_iff_ne.mpr fun same => (bare node member).2 (same ▸ inside)
  simp only [Function.comp_apply, Node.piece, List.takeWhile_append_of_pos inTag,
    List.dropWhile_append_of_pos inTag]
  simp [Text.plainChars_markupChars]

end GrammarWorkbench.Report

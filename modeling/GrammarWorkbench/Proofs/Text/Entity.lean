import GrammarWorkbench.Proofs.Text.Replaced
import GrammarWorkbench.Text.Entity

/-!
# Undoing entities

Text that is written with entities has no character that marks markup, and each ampersand in it
begins an entity.  Undoing the entities from left to right gives the text back, also where it looks
like an entity itself.  It makes no difference whether the characters are written one after the
other, each in the whole text, since the ampersand comes first.
-/

namespace GrammarWorkbench.Text

/-- The characters that are written as entities. -/
def entityChars : List Char :=
  ['&', '<', '>', '"', '\'']

/-- The characters that mark markup outside of entities. -/
def markChars : List Char :=
  ['<', '>', '"', '\'']

/-- The character whose entity a text begins with. -/
def entity? (style : Apostrophe) (text : List Char) : Option Char :=
  entityChars.find? fun char => (markupChar style char).isPrefixOf text

/-- Undo entities behind so many characters that belong to the last one. -/
def plainFrom (style : Apostrophe) : Nat → List Char → List Char
  | _, [] => []
  | skipped + 1, _ :: rest => plainFrom style skipped rest
  | 0, first :: rest =>
      match entity? style (first :: rest) with
      | some char => char :: plainFrom style ((markupChar style char).length - 1) rest
      | none => first :: plainFrom style 0 rest

/-- The text with its entities undone. -/
def plainChars (style : Apostrophe) (text : List Char) : List Char :=
  plainFrom style 0 text

variable {style : Apostrophe} {char : Char} {text : List Char}

/-! ## Entities as replacements -/

/-- The entities in the order in which they are put in. -/
def entityTable (style : Apostrophe) : List Replacement :=
  [('&', ['&', 'a', 'm', 'p', ';']), ('<', ['&', 'l', 't', ';']), ('>', ['&', 'g', 't', ';']),
    ('"', ['&', 'q', 'u', 'o', 't', ';']), ('\'', style.entity)]

theorem entityTable_eq (style : Apostrophe) :
    entityTable style = entityChars.map fun char => (char, markupChar style char) :=
  rfl

theorem markupChar_eq (style : Apostrophe) (char : Char) :
    markupChar style char = replaced (entityTable style) char := by
  unfold markupChar
  split
  · rfl
  · rfl
  · rfl
  · rfl
  · rfl
  · simp_all [entityTable, replaced]

theorem markupChars_eq (style : Apostrophe) : markupChars style = replaceAtOnce (entityTable style) :=
  funext fun _ => List.flatMap_congr fun char _ => markupChar_eq style char

/-- The entities with either form of the apostrophe. -/
def eitherTable : List Replacement :=
  entityTable .decimal ++ entityTable .hexadecimal

theorem readsBack_eitherTable (style : Apostrophe) : ReadsBack eitherTable (entityTable style) := by
  cases style with
  | decimal => exact ⟨by decide, by decide, by decide⟩
  | hexadecimal => exact ⟨by decide, by decide, by decide⟩

theorem readsBack_entityTable (style : Apostrophe) :
    ReadsBack (entityTable style) (entityTable style) :=
  (readsBack_eitherTable style).alone

theorem find?_entityTable (text : List Char) :
    (entityTable style).find? (fun entry => entry.2.isPrefixOf text) =
      (entity? style text).map fun char => (char, markupChar style char) := by
  rw [entityTable_eq, List.find?_map]
  rfl

theorem plainFrom_eq (skipped : Nat) (text : List Char) :
    plainFrom style skipped text = restoreFrom (entityTable style) skipped text := by
  fun_induction plainFrom style skipped text with
  | case1 => rfl
  | case2 _ _ _ ih => exact ih
  | case3 first rest char found ih =>
      rw [restoreFrom, find?_entityTable, found, ih]
      rfl
  | case4 first rest found ih =>
      rw [restoreFrom, find?_entityTable, found, ih]
      rfl

/-- Undoing the entities gives back what was written with them. -/
theorem plainChars_markupChars (text : List Char) :
    plainChars style (markupChars style text) = text := by
  rw [plainChars, plainFrom_eq, markupChars_eq]
  exact (readsBack_entityTable style).restore_replaceAtOnce text

theorem not_mem_markupChars (mark : char ∈ markChars) (text : List Char) :
    char ∉ markupChars style text := by
  have special : ∀ char ∈ markChars, (∃ entry ∈ entityTable style, entry.1 = char) ∧
      ∀ entry ∈ entityTable style, char ∉ entry.2 := by
    cases style with
    | decimal => simp [markChars, entityTable, Apostrophe.entity]
    | hexadecimal => simp [markChars, entityTable, Apostrophe.entity]
  obtain ⟨known, absent⟩ := special char mark
  rw [markupChars_eq]
  exact not_mem_replaceAtOnce known absent text

theorem filter_markupChars (text : List Char) :
    (markupChars style text).filter (· ∈ markChars) = [] :=
  List.filter_eq_nil_iff.mpr fun _ member mark =>
    not_mem_markupChars (of_decide_eq_true mark) text member

/-- Text without special characters is written as it is. -/
theorem markupChars_eq_self (plain : ∀ char ∈ text, char ∉ entityChars) :
    markupChars style text = text := by
  rw [markupChars_eq]
  refine replaceAtOnce_eq_self fun entry member inside => plain entry.1 inside ?_
  rw [entityTable_eq] at member
  obtain ⟨char, known, rfl⟩ := List.mem_map.mp member
  exact known

/-! ## Writing and reading whole texts -/

/-- The text with the special characters replaced one after the other, each in the whole of it. -/
def markupInTurn (style : Apostrophe) (text : String) : String :=
  String.ofList (replaceInTurn (entityTable style) text.toList)

/-- The text with the entities of a table read back. -/
def unmarkup (table : List Replacement) (text : String) : String :=
  String.ofList (restore table text.toList)

theorem markupInTurn_eq (style : Apostrophe) (text : String) :
    markupInTurn style text = markup style text := by
  have apart : (entityTable style).Pairwise fun earlier later => later.1 ∉ earlier.2 := by
    cases style with
    | decimal => decide
    | hexadecimal => decide
  rw [markupInTurn, replaceInTurn_eq apart, markup, markupChars_eq]

theorem unmarkup_markup {table : List Replacement} (back : ReadsBack table (entityTable style))
    (text : String) : unmarkup table (markup style text) = text := by
  rw [unmarkup, markup, markupChars_eq, String.toList_ofList, back.restore_replaceAtOnce,
    String.ofList_toList]

/-- Markup stands for the text: it has entities in place of marks, and reads as the text. -/
structure Encodes (style : Apostrophe) (text written : String) : Prop where
  unmarked : ∀ mark ∈ markChars, mark ∉ written.toList
  begun : ∀ before after, written.toList = before ++ '&' :: after →
    ∃ entry ∈ entityTable style, entry.2 <+: '&' :: after
  undone : unmarkup (entityTable style) written = text

theorem encodes_markup (style : Apostrophe) (text : String) :
    Encodes style text (markup style text) where
  unmarked := by
    intro mark member
    rw [markup, String.toList_ofList]
    exact not_mem_markupChars member text.toList
  begun := by
    have special : ∀ entry ∈ entityTable style, '&' ∉ entry.2.tail := by
      cases style with
      | decimal => decide
      | hexadecimal => decide
    intro before after split
    rw [markup, String.toList_ofList, markupChars_eq] at split
    exact exists_prefix_of_replaceAtOnce ⟨_, List.mem_cons_self, rfl⟩ special split
  undone := unmarkup_markup (readsBack_entityTable style) text

/--
Writing the special characters in turn is the same as writing each as it comes, and encodes the
text faithfully with either form of the apostrophe.  No two texts are written alike, and a reader
of both forms finds the same text in both.
-/
theorem markup_exact :
    (∀ style text, markupInTurn style text = markup style text ∧
      Encodes style text (markup style text)) ∧
    (∀ style, Function.Injective (markup style)) ∧
    ∀ text, unmarkup eitherTable (markup .decimal text) = text ∧
      unmarkup eitherTable (markup .decimal text) =
        unmarkup eitherTable (markup .hexadecimal text) := by
  refine ⟨fun style text => ⟨markupInTurn_eq style text, encodes_markup style text⟩,
    fun style => ?_, fun text => ?_⟩
  · exact Function.LeftInverse.injective (unmarkup_markup (readsBack_entityTable style))
  · have decimal := unmarkup_markup (readsBack_eitherTable .decimal) text
    exact ⟨decimal, decimal.trans (unmarkup_markup (readsBack_eitherTable .hexadecimal) text).symm⟩

/-- What looks like an entity is undone only once. -/
example : unmarkup eitherTable (markup .decimal "&lt;&#x27;") = "&lt;&#x27;" := by decide

end GrammarWorkbench.Text

import GrammarWorkbench.Json.Writer
import GrammarWorkbench.Proofs.Text.Joined

/-!
# Halves in a written value

What is written of a value besides the characters of its strings is below 128.  So a half of a
pair stands alone in the text exactly if it does in a string.
-/

namespace GrammarWorkbench.Json

open Text (isWhole isWhole_of_ascii)

/-- No half of a pair stands alone in the text. -/
def WholeText (text : List Char) : Prop :=
  ∀ char ∈ text, isWhole char = true

mutual

/-- No half of a pair stands alone in a string of the value, nor in a name. -/
def Whole : Json → Prop
  | .null => True
  | .bool _ => True
  | .integer _ => True
  | .number _ => True
  | .string value => WholeText value.toList
  | .array items => WholeItems items
  | .object members => WholeMembers members

def WholeItems : List Json → Prop
  | [] => True
  | first :: rest => Whole first ∧ WholeItems rest

def WholeMembers : List (String × Json) → Prop
  | [] => True
  | (name, value) :: rest => WholeText name.toList ∧ Whole value ∧ WholeMembers rest

end

/-! ## Texts -/

namespace WholeText

@[simp] theorem nil : WholeText [] :=
  nofun

@[simp] theorem cons_iff {first : Char} {rest : List Char} :
    WholeText (first :: rest) ↔ isWhole first = true ∧ WholeText rest :=
  List.forall_mem_cons

@[simp] theorem append_iff {left right : List Char} :
    WholeText (left ++ right) ↔ WholeText left ∧ WholeText right :=
  List.forall_mem_append

theorem of_ascii {text : List Char} (ascii : text.all (·.toNat < 0x80) = true) : WholeText text :=
  fun char member => isWhole_of_ascii (of_decide_eq_true (List.all_eq_true.mp ascii char member))

theorem subset {part whole : List Char} (holds : WholeText whole) (within : part ⊆ whole) :
    WholeText part :=
  fun char member => holds char (within member)

theorem flatMap_iff {α : Type} {items : List α} {write : α → List Char} :
    WholeText (items.flatMap write) ↔ ∀ item ∈ items, WholeText (write item) := by
  simp only [WholeText, List.mem_flatMap]
  grind

theorem intercalate_iff {between : List Char} (whole : WholeText between)
    {parts : List (List Char)} :
    WholeText (between.intercalate parts) ↔ ∀ part ∈ parts, WholeText part := by
  cases parts with
  | nil => simp
  | cons first rest => simp [Text.intercalate_cons_flatMap, flatMap_iff, whole]

/-- Texts between commas, and all of them between two marks. -/
theorem enclosed_iff {left right : String} (front : WholeText left.toList)
    (back : WholeText right.toList) {texts : List String} :
    WholeText (left ++ ",".intercalate texts ++ right).toList ↔
      ∀ text ∈ texts, WholeText text.toList := by
  have comma : WholeText ",".toList := .of_ascii (by decide)
  simp only [String.toList_append, String.toList_intercalate, append_iff, front, back,
    intercalate_iff comma, List.forall_mem_map, true_and, and_true]

/-! ## Numbers -/

theorem hexDigits (width number : Nat) : WholeText (Text.hexDigits width number) := by
  have digit : ∀ value < 16, (Text.hexDigit value).toNat < 0x80 := by decide
  induction width generalizing number with
  | zero => exact nil
  | succ width ih =>
      have last := isWhole_of_ascii (digit (number % 16) (Nat.mod_lt _ (by decide)))
      simp [Text.hexDigits, ih, last]

theorem toDigits (number : Nat) : WholeText (Nat.toDigits 10 number) := by
  refine fun char member => isWhole_of_ascii ?_
  have digit := Nat.isDigit_of_mem_toDigits (by decide) (by decide) member
  simp only [Char.isDigit, Bool.and_eq_true, decide_eq_true_eq, UInt32.le_iff_toNat_le] at digit
  exact Nat.lt_of_le_of_lt digit.2 (by decide)

theorem repr (number : Int) : WholeText number.repr.toList := by
  rw [Int.repr_eq_if]
  split
  · simpa using toDigits _
  · simpa using ⟨rfl, toDigits _⟩

theorem replicate {char : Char} (whole : isWhole char = true) (count : Nat) :
    WholeText (List.replicate count char) :=
  fun _ member => List.eq_of_mem_replicate member ▸ whole

theorem positional {digits : List Char} (whole : WholeText digits) (leading : Int) :
    WholeText (Decimal.positional digits leading) := by
  have zero : isWhole '0' = true := rfl
  have point : isWhole '.' = true := rfl
  have front := whole.subset (List.take_subset (leading.toNat + 1) digits)
  have back := whole.subset (List.drop_subset (leading.toNat + 1) digits)
  simp only [Decimal.positional]
  split
  · simp [replicate zero, zero, point, whole]
  · split
    · simp [replicate zero, zero, point, whole]
    · simp [point, front, back]

theorem power (leading : Int) : WholeText (Decimal.power leading) := by
  have mark : isWhole 'e' = true := rfl
  have sign : isWhole (if leading < 0 then '-' else '+') = true := by
    split
    · rfl
    · rfl
  have padded : WholeText (if (Nat.toDigits 10 leading.natAbs).length < 2
      then '0' :: Nat.toDigits 10 leading.natAbs else Nat.toDigits 10 leading.natAbs) := by
    split
    · exact cons_iff.mpr ⟨rfl, toDigits _⟩
    · exact toDigits _
  exact cons_iff.mpr ⟨mark, cons_iff.mpr ⟨sign, padded⟩⟩

theorem scientific {digits : List Char} (whole : WholeText digits) (leading : Int) :
    WholeText (Decimal.scientific digits leading) := by
  unfold Decimal.scientific
  split
  · exact cons_iff.mpr ⟨(cons_iff.mp whole).1, power leading⟩
  · have point : isWhole '.' = true := rfl
    obtain ⟨first, rest⟩ := cons_iff.mp whole
    simp [first, rest, point, power]
  · exact nil

theorem digits (value : Decimal.Binary) : WholeText value.digits.digits := by
  refine (toDigits value.shortest.1).subset fun char member => ?_
  have kept := List.mem_reverse.mp member
  exact List.mem_reverse.mp ((List.dropWhile_sublist _).subset kept)

theorem writtenChars (value : Float) : WholeText (Decimal.writtenChars value) := by
  have sign : WholeText (if Decimal.signed value.toBits then ['-'] else []) := by
    split
    · exact of_ascii (by decide)
    · exact nil
  simp only [Decimal.writtenChars]
  split
  · exact of_ascii (by decide)
  · refine append_iff.mpr ⟨sign, ?_⟩
    split
    · exact of_ascii (by decide)
    · split
      · exact of_ascii (by decide)
      · unfold Decimal.Digits.written
        split
        · exact positional (digits _) _
        · exact scientific (digits _) _

theorem numberText (value : Float) : WholeText (Json.numberText value).toList := by
  unfold Json.numberText
  split
  · exact of_ascii (by decide)
  · split
    · split
      · exact of_ascii (by decide)
      · exact of_ascii (by decide)
    · simpa [Decimal.written] using writtenChars value

/-! ## Strings -/

/-- Only characters below 128 are escaped, by other such characters. -/
theorem stringChar_iff {char : Char} : WholeText (stringChar char) ↔ isWhole char = true := by
  by_cases ascii : char.toNat < 0x80
  · have slash : isWhole '\\' = true := rfl
    have mark : isWhole 'u' = true := rfl
    have whole := isWhole_of_ascii ascii
    refine iff_of_true ?_ whole
    fun_cases stringChar char with
    | case1 | case8 => simp [slash, whole]
    | case7 => simp [slash, mark, hexDigits]
    | case2 | case3 | case4 | case5 | case6 => exact of_ascii (by decide)
  · have other (special : Char) (below : special.toNat < 0x80) : char ≠ special :=
      fun same => ascii (same ▸ below)
    have high : ¬ char.toNat < 0x20 := by omega
    have plain : stringChar char = [char] := by
      simp [stringChar, high, other '"' (by decide), other '\\' (by decide),
        other '\n' (by decide), other '\r' (by decide), other '\t' (by decide),
        other '\x08' (by decide), other '\x0c' (by decide)]
    simp [plain]

theorem stringText_iff {value : String} :
    WholeText (stringText value).toList ↔ WholeText value.toList := by
  have mark : isWhole '"' = true := rfl
  have inside : WholeText (value.toList.flatMap stringChar) ↔ WholeText value.toList := by
    rw [flatMap_iff]
    simp only [stringChar_iff]
    rfl
  simp [stringText, inside, mark]

end WholeText

/-! ## Values -/

theorem mem_insertMember {member other : String × String} {members : List (String × String)} :
    other ∈ insertMember member members ↔ other = member ∨ other ∈ members := by
  induction members with
  | nil => simp [insertMember]
  | cons first rest ih =>
      rw [insertMember]
      split
      · simp only [List.mem_cons, ih]
        exact or_left_comm
      · exact List.mem_cons

theorem mem_sortMembers {other : String × String} {members : List (String × String)} :
    other ∈ sortMembers members ↔ other ∈ members := by
  induction members with
  | nil => rfl
  | cons first rest ih =>
      have step : sortMembers (first :: rest) = insertMember first (sortMembers rest) := rfl
      rw [step, mem_insertMember, ih, List.mem_cons]

theorem wholeText_objectText_iff {members : List (String × String)} :
    WholeText (objectText members).toList ↔
      ∀ member ∈ members, WholeText member.1.toList ∧ WholeText member.2.toList := by
  have colon : WholeText ":".toList := .of_ascii (by decide)
  rw [objectText, WholeText.enclosed_iff (.of_ascii (by decide)) (.of_ascii (by decide))]
  simp only [List.forall_mem_map, mem_sortMembers, String.toList_append, WholeText.append_iff,
    WholeText.stringText_iff, colon, and_true]

mutual

/-- Only what stands in the strings and names of a value may hold a half. -/
theorem wholeText_text_iff : ∀ value : Json, WholeText value.text.toList ↔ value.Whole
  | .null => iff_of_true (.of_ascii (by decide)) trivial
  | .bool true => iff_of_true (.of_ascii (by decide)) trivial
  | .bool false => iff_of_true (.of_ascii (by decide)) trivial
  | .integer value => iff_of_true (.repr value) trivial
  | .number value => iff_of_true (.numberText value) trivial
  | .string value => by
      rw [text, Whole]
      exact WholeText.stringText_iff
  | .array items => by
      rw [text, Whole, WholeText.enclosed_iff (.of_ascii (by decide)) (.of_ascii (by decide))]
      exact wholeText_itemTexts_iff items
  | .object members => by
      rw [text, Whole, wholeText_objectText_iff]
      exact wholeText_memberTexts_iff members

theorem wholeText_itemTexts_iff : ∀ items : List Json,
    (∀ written ∈ itemTexts items, WholeText written.toList) ↔ WholeItems items
  | [] => iff_of_true nofun trivial
  | first :: rest => by
      rw [itemTexts, WholeItems, List.forall_mem_cons, wholeText_text_iff first,
        wholeText_itemTexts_iff rest]

theorem wholeText_memberTexts_iff : ∀ members : List (String × Json),
    (∀ written ∈ memberTexts members,
      WholeText written.1.toList ∧ WholeText written.2.toList) ↔ WholeMembers members
  | [] => iff_of_true nofun trivial
  | (name, value) :: rest => by
      rw [memberTexts, WholeMembers, List.forall_mem_cons, wholeText_text_iff value,
        wholeText_memberTexts_iff rest, and_assoc]

end

end GrammarWorkbench.Json

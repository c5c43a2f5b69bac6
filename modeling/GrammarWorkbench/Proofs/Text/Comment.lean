import GrammarWorkbench.Proofs.Text.Apart
import GrammarWorkbench.Text.Comment

/-!
# Comments and lines

Block comments go before line comments, so what a line comment says has its part in the text
behind it exactly if it opens a block that is closed there.  A line is otherwise over for the
block comments where it ends, and for its own comment in any case.
-/

namespace GrammarWorkbench.Text

variable {text left right front body kept rest : List Char} {first second : Char}

/-! ## Line ends -/

theorem unifyLineEnds_cons (first : Char) (rest : List Char) (other : first ≠ '\r') :
    unifyLineEnds (first :: rest) = first :: unifyLineEnds rest :=
  unifyLineEnds.eq_3 first rest (fun _ same _ => other same) other

/-- Texts that meet before another character than a newline have their line ends apart. -/
theorem unifyLineEnds_append_cons (other : first ≠ '\n') :
    unifyLineEnds (left ++ first :: right) =
      unifyLineEnds left ++ unifyLineEnds (first :: right) := by
  fun_induction unifyLineEnds left with
  | case1 rest ih => simpa [unifyLineEnds] using ih
  | case2 rest single ih =>
      have still : ∀ behind, rest ++ first :: right ≠ '\n' :: behind := by
        intro behind same
        cases rest with
        | nil => exact other (List.cons.inj same).1
        | cons next rest =>
            obtain ⟨rfl, _⟩ := List.cons.inj same
            exact single rest rfl
      rw [List.cons_append, unifyLineEnds.eq_2 _ still, ih]
      rfl
  | case3 next rest _ single ih =>
      rw [List.cons_append, unifyLineEnds_cons _ _ single, ih]
      rfl
  | case4 => rfl

theorem unifyLineEnds_append_newline (line : '\r' ∉ body) :
    unifyLineEnds (body ++ '\n' :: rest) = body ++ '\n' :: unifyLineEnds rest := by
  induction body with
  | nil => exact unifyLineEnds_cons _ _ (by decide)
  | cons first body ih =>
      have here := List.ne_of_not_mem_cons line
      rw [List.cons_append, unifyLineEnds_cons _ _ here.symm,
        ih (List.not_mem_of_not_mem_cons line), List.cons_append]

theorem unifyLineEnds_of_not_mem (line : '\r' ∉ text) : unifyLineEnds text = text := by
  induction text with
  | nil => rfl
  | cons first rest ih =>
      have here := List.ne_of_not_mem_cons line
      rw [unifyLineEnds_cons _ _ here.symm, ih (List.not_mem_of_not_mem_cons line)]

theorem mem_head?_of_unifyLineEnds {next : Char} (solid : next ≠ '\n')
    (front : next ∈ (unifyLineEnds text).head?) : next ∈ text.head? := by
  revert front
  fun_cases unifyLineEnds text with
  | case1 rest => simp [Ne.symm solid]
  | case2 rest _ => simp [Ne.symm solid]
  | case3 first rest _ _ => simp
  | case4 => simp

/-- No mark is made or lost where line ends become newlines. -/
theorem Apart.unifyLineEnds (apart : Apart first second text) (begins : first ≠ '\n')
    (ends : second ≠ '\n') : Apart first second (unifyLineEnds text) := by
  fun_induction Text.unifyLineEnds text with
  | case1 rest ih =>
      refine (apart_cons_of_ne (Ne.symm begins)).mpr (ih ?_)
      exact List.IsChain.tail (List.IsChain.tail apart)
  | case2 rest _ ih =>
      exact (apart_cons_of_ne (Ne.symm begins)).mpr (ih (List.IsChain.tail apart))
  | case3 front rest _ _ ih =>
      obtain ⟨here, later⟩ := List.isChain_cons.mp apart
      refine List.isChain_cons.mpr ⟨fun next inFront marked => ?_, ih later⟩
      have solid : next ≠ '\n' := fun same => ends (marked.2.symm.trans same)
      exact here next (mem_head?_of_unifyLineEnds solid inFront) marked
  | case4 => exact apart

/-! ## Block comments -/

theorem closesBlock_cons (apart : ∀ next ∈ rest.head?, ¬ (first = '*' ∧ next = '/')) :
    closesBlock (first :: rest) = closesBlock rest := by
  refine closesBlock.eq_2 first rest fun behind star slash => ?_
  exact apart '/' (by rw [slash]; rfl) ⟨star, rfl⟩

theorem closesBlock_eq_false_iff : closesBlock text = false ↔ Apart '*' '/' text := by
  fun_induction closesBlock text with
  | case1 rest => simp [Apart]
  | case2 first rest still ih =>
      rw [ih, Apart, Apart, List.isChain_cons]
      refine (and_iff_right ?_).symm
      rintro next inFront ⟨rfl, rfl⟩
      obtain ⟨behind, rfl⟩ := List.head?_eq_some_iff.mp inFront
      exact still behind rfl rfl
  | case3 => simp [Apart]

theorem closesBlock_append_newline (body rest : List Char) :
    closesBlock (body ++ '\n' :: rest) = (closesBlock body || closesBlock rest) := by
  rw [Bool.eq_iff_iff, ← not_iff_not]
  simp only [Bool.not_eq_true, Bool.or_eq_false_iff, closesBlock_eq_false_iff]
  exact apart_append_cons_of_ne (by decide) (by decide)

theorem dropBlocks_cons (apart : ∀ next ∈ rest.head?, ¬ (first = '/' ∧ next = '*')) :
    dropBlocks false (first :: rest) = first :: dropBlocks false rest := by
  refine dropBlocks.eq_4 first rest fun behind slash star => ?_
  exact apart '*' (by rw [star]; rfl) ⟨slash, rfl⟩

/-- A block comment stands in the text. -/
def HasBlock (text : List Char) : Prop :=
  ∃ before body after, text = before ++ '/' :: '*' :: (body ++ '*' :: '/' :: after)

theorem closesBlock_iff : closesBlock text = true ↔
    ∃ body after, text = body ++ '*' :: '/' :: after := by
  rw [← not_iff_not, Bool.not_eq_true, closesBlock_eq_false_iff, apart_iff]
  simp [List.IsInfix, eq_comm]

theorem HasBlock.closes (block : HasBlock text) : closesBlock text = true := by
  obtain ⟨before, body, after, rfl⟩ := block
  exact closesBlock_iff.mpr ⟨before ++ '/' :: '*' :: body, after, by simp⟩

theorem hasBlock_cons_iff : HasBlock (first :: rest) ↔
    (first = '/' ∧ ∃ behind, rest = '*' :: behind ∧ closesBlock behind = true) ∨ HasBlock rest := by
  constructor
  · rintro ⟨before, body, after, split⟩
    cases before with
    | nil =>
        obtain ⟨rfl, rfl⟩ := List.cons.inj split
        exact .inl ⟨rfl, _, rfl, closesBlock_iff.mpr ⟨body, after, rfl⟩⟩
    | cons _ before =>
        obtain ⟨rfl, rfl⟩ := List.cons.inj split
        exact .inr ⟨before, body, after, rfl⟩
  · rintro (⟨rfl, behind, rfl, closed⟩ | ⟨before, body, after, rfl⟩)
    · obtain ⟨body, after, rfl⟩ := closesBlock_iff.mp closed
      exact ⟨[], body, after, rfl⟩
    · exact ⟨first :: before, body, after, rfl⟩

/-- A text without a block comment stays as it is. -/
theorem dropBlocks_of_not_hasBlock (none : ¬ HasBlock text) : dropBlocks false text = text := by
  induction text with
  | nil => rfl
  | cons first rest ih =>
      rw [hasBlock_cons_iff, not_or] at none
      by_cases opens : first = '/' ∧ ∃ behind, rest = '*' :: behind
      · obtain ⟨rfl, behind, rfl⟩ := opens
        have never : closesBlock behind = false :=
          Bool.not_eq_true _ ▸ fun closed => none.1 ⟨rfl, behind, rfl, closed⟩
        rw [dropBlocks.eq_3, never]
        rfl
      · rw [dropBlocks.eq_4 first rest fun behind slash star => opens ⟨slash, behind, star⟩,
          ih none.2]

theorem dropBlocks_sublist (inside : Bool) (text : List Char) :
    (dropBlocks inside text).Sublist text := by
  fun_induction dropBlocks inside text with
  | case1 rest ih => exact (ih.cons _).cons _
  | case2 first rest _ ih => exact ih.cons _
  | case3 rest _ ih => exact (ih.cons _).cons _
  | case4 rest _ => exact .refl _
  | case5 first rest _ ih => exact ih.cons_cons _
  | case6 inside => exact .refl _

/-- A block comment takes its marks away, if nothing else. -/
theorem countP_dropBlocks_lt (counts : Char → Bool) (slash : counts '/' = true)
    (block : HasBlock text) : (dropBlocks false text).countP counts < text.countP counts := by
  induction text with
  | nil =>
      obtain ⟨before, _, _, split⟩ := block
      simp at split
  | cons first rest ih =>
      by_cases opens : first = '/' ∧ ∃ behind, rest = '*' :: behind ∧ closesBlock behind = true
      · obtain ⟨rfl, behind, rfl, closed⟩ := opens
        have fewer := (dropBlocks_sublist true behind).countP_le (p := counts)
        rw [dropBlocks.eq_3, closed]
        simp [List.countP_cons, slash]
        omega
      · have later := (hasBlock_cons_iff.mp block).resolve_left opens
        have still : ∀ behind, first = '/' → rest ≠ '*' :: behind := by
          rintro behind rfl rfl
          have inner := (hasBlock_cons_iff.mp later).resolve_left (by simp)
          exact opens ⟨rfl, behind, rfl, inner.closes⟩
        rw [dropBlocks.eq_4 first rest still, List.countP_cons, List.countP_cons]
        exact Nat.add_lt_add_right (ih later) _

/-- A block that is never closed is no comment. -/
theorem dropBlocks_of_not_closes (never : closesBlock text = false) :
    dropBlocks false text = text :=
  dropBlocks_of_not_hasBlock fun block => Bool.false_ne_true (never.symm.trans block.closes)

/-- A text before the first block comment stays as it is. -/
theorem dropBlocks_append_slash (apart : Apart '/' '*' left) :
    dropBlocks false (left ++ '/' :: right) = left ++ dropBlocks false ('/' :: right) := by
  induction left with
  | nil => rfl
  | cons first left ih =>
      obtain ⟨here, later⟩ := List.isChain_cons.mp apart
      rw [List.cons_append, dropBlocks_cons, ih later, List.cons_append]
      cases left with
      | nil => simp
      | cons second left => exact here

/-- The text ends inside a block comment; the flag says that it starts inside one. -/
def endsInBlock : Bool → List Char → Bool
  | true, '*' :: '/' :: rest => endsInBlock false rest
  | true, _ :: rest => endsInBlock true rest
  | false, '/' :: '*' :: rest => endsInBlock true rest
  | false, _ :: rest => endsInBlock false rest
  | inside, [] => inside

theorem endsInBlock_of_not_closes (never : closesBlock text = false) :
    endsInBlock true text = true := by
  induction text with
  | nil => rfl
  | cons first rest ih =>
      have apart := closesBlock_eq_false_iff.mp never
      have still : ∀ behind, first = '*' → rest ≠ '/' :: behind := by
        rintro behind rfl rfl
        exact (List.isChain_cons_cons.mp apart).1 ⟨rfl, rfl⟩
      rw [endsInBlock.eq_2 first rest still]
      exact ih (closesBlock_eq_false_iff.mpr (List.IsChain.tail apart))

/--
What the block comments leave of a text from the end of a line on.  The flag says that the line
ends inside a block, which is one only if it is closed behind the line.
-/
def behindLine (inside : Bool) (rest : List Char) : List Char :=
  if inside && closesBlock rest then dropBlocks true rest else '\n' :: dropBlocks false rest

/-- A character makes a mark with the next one on its line, or with none. -/
theorem apart_before_newline {mark behind : Char} (ends : '\n' ≠ behind) (rest : List Char)
    (still : ∀ body', first = mark → body = behind :: body' → False) :
    ∀ next ∈ (body ++ '\n' :: rest).head?, ¬ (first = mark ∧ next = behind) := by
  rintro next inFront ⟨rfl, rfl⟩
  cases body with
  | nil => exact ends (Option.some.inj inFront)
  | cons second body =>
      obtain rfl := Option.some.inj inFront
      exact still body rfl rfl

/-- The block comments leave some characters of a line and what is behind the line. -/
theorem exists_dropBlocks_line (line : '\n' ∉ body) (rest : List Char) (inside : Bool)
    (closes : inside = true → closesBlock (body ++ '\n' :: rest) = true) :
    ∃ kept, '\n' ∉ kept ∧
      dropBlocks inside (body ++ '\n' :: rest) =
        kept ++ behindLine (endsInBlock inside body) rest := by
  -- Along the line the flag changes where a block begins or ends; a block that begins and is
  -- never closed ends the search.
  fun_induction endsInBlock inside body with
  | case1 body ih => exact ih (fun inside => line (by simp [inside])) nofun
  | case2 first body still ih =>
      have apart := apart_before_newline (by decide) rest still
      rw [List.cons_append, closesBlock_cons apart] at closes
      obtain ⟨kept, sameLine, left⟩ := ih (List.not_mem_of_not_mem_cons line) closes
      refine ⟨kept, sameLine, ?_⟩
      rw [List.cons_append, ← left]
      refine dropBlocks.eq_2 first _ fun behind star slash => ?_
      exact apart '/' (by rw [slash]; rfl) ⟨star, rfl⟩
  | case3 body ih =>
      have later : '\n' ∉ body := fun inside => line (by simp [inside])
      rw [List.cons_append, List.cons_append, dropBlocks.eq_3]
      split
      · rename_i closed
        exact ih later fun _ => closed
      · rename_i never
        rw [Bool.not_eq_true, closesBlock_append_newline, Bool.or_eq_false_iff] at never
        refine ⟨'/' :: '*' :: body, line, ?_⟩
        rw [endsInBlock_of_not_closes never.1, behindLine, never.2, Bool.and_false,
          dropBlocks_of_not_closes never.2]
        rfl
  | case4 first body still ih =>
      have apart := apart_before_newline (by decide) rest still
      obtain ⟨kept, sameLine, left⟩ := ih (List.not_mem_of_not_mem_cons line) nofun
      refine ⟨first :: kept, ?_, ?_⟩
      · exact List.not_mem_cons_of_ne_of_not_mem (List.ne_of_not_mem_cons line) sameLine
      · rw [List.cons_append, dropBlocks_cons apart, left, List.cons_append]
  | case5 inside =>
      refine ⟨[], List.not_mem_nil, ?_⟩
      cases inside with
      | false => rfl
      | true =>
          have closed : closesBlock rest = true := closes rfl
          rw [behindLine, closed]
          rfl

/-! ## Line comments -/

theorem dropLineComment_cons (apart : ∀ next ∈ rest.head?, ¬ (first = '/' ∧ next = '/')) :
    dropLineComment (first :: rest) = first :: dropLineComment rest := by
  refine dropLineComment.eq_2 first rest fun behind here next => ?_
  exact apart '/' (by rw [next]; rfl) ⟨here, rfl⟩

/-- What a line comment says is all the same. -/
theorem dropLineComment_append_comment (front body : List Char) :
    dropLineComment (front ++ '/' :: '/' :: body) = dropLineComment (front ++ ['/', '/']) := by
  induction front with
  | nil => rfl
  | cons first front ih =>
      have sameFront : (front ++ '/' :: '/' :: body).head? = (front ++ ['/', '/']).head? := by
        cases front with
        | nil => rfl
        | cons _ _ => rfl
      by_cases apart : ∀ next ∈ (front ++ ['/', '/']).head?, ¬ (first = '/' ∧ next = '/')
      · rw [List.cons_append, List.cons_append, dropLineComment_cons apart,
          dropLineComment_cons (sameFront ▸ apart), ih]
      · push Not at apart
        obtain ⟨next, inFront, rfl, rfl⟩ := apart
        obtain ⟨_, short⟩ := List.head?_eq_some_iff.mp inFront
        obtain ⟨_, long⟩ := List.head?_eq_some_iff.mp (sameFront.trans inFront)
        rw [List.cons_append, List.cons_append, short, long]
        rfl

theorem dropLineComment_of_apart (apart : Apart '/' '/' text) : dropLineComment text = text := by
  induction text with
  | nil => rfl
  | cons first rest ih =>
      obtain ⟨here, later⟩ := List.isChain_cons.mp apart
      rw [dropLineComment_cons here, ih later]

theorem dropLineComment_prefix (text : List Char) : dropLineComment text <+: text := by
  fun_induction dropLineComment text with
  | case1 rest => exact List.nil_prefix
  | case2 first rest _ ih => exact (List.prefix_cons_inj first).mpr ih
  | case3 => exact List.nil_prefix

/-- Without its comment a line has no comment mark left. -/
theorem apart_dropLineComment (text : List Char) : Apart '/' '/' (dropLineComment text) := by
  fun_induction dropLineComment text with
  | case1 rest => exact .nil
  | case2 first rest still ih =>
      refine List.isChain_cons.mpr ⟨?_, ih⟩
      rintro next inFront ⟨rfl, rfl⟩
      obtain ⟨behind, shape⟩ := List.head?_eq_some_iff.mp inFront
      obtain ⟨others, same⟩ := shape ▸ dropLineComment_prefix rest
      exact still _ rfl same.symm
  | case3 => exact .nil

end GrammarWorkbench.Text

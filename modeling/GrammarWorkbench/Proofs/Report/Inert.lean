import GrammarWorkbench.Proofs.Analysis
import GrammarWorkbench.Proofs.Report.Node

/-!
# Text of a grammar stays text

A report is a front that only its style tells and nodes whose tags only the numbers of conflicts
and of their rules tell.  Whatever stands in the symbols, the rules, the messages and the lines of
a grammar therefore adds no mark of markup, and it is read from the page as it was.
-/

namespace GrammarWorkbench

/-- All rules that the conflict names are rules of the grammar. -/
def Conflict.Rulable (grammar : Grammar) (conflict : Conflict) : Prop :=
  ∀ position ∈ conflict.rules, (itemAt? grammar.rules position).isSome

namespace Report

variable {grammar : Grammar} {conflicts : List Conflict} {style : ReportStyle}

/-! ## Nodes of the pages -/

/-- Lines with their ends. -/
def ended (lines : List String) : String :=
  String.join (lines.map (· ++ "\n"))

/-- What stands on a page before its text: the style sheet and the tag that names the classes. -/
def front (style : ReportStyle) (classes : String) : String :=
  ended (style.opening ++ ["<div class=\"" ++ classes ++ "\">"])

def ruleNodes (grammar : Grammar) (position : Int) : List Node :=
  (itemAt? grammar.rules position).toList.flatMap fun rule =>
    [⟨"li", "(" ++ toString position ++ ") " ++ rule.text⟩, ⟨"/li", "\n"⟩]

/-- A paragraph that says what it is about first. -/
def paragraphNodes (title text : String) : List Node :=
  [⟨"p", ""⟩, ⟨"strong", title⟩, ⟨"/strong", text⟩, ⟨"/p", "\n"⟩]

def openingNodes (conflict : Conflict) (count : Nat) : List Node :=
  [⟨"div class=\"conflict-item\"", "\n"⟩,
      ⟨"h5", "Conflict " ++ toString count ++ ": " ++ conflict.kind.name⟩, ⟨"/h5", "\n"⟩] ++
    paragraphNodes "State:" (" " ++ toString conflict.state) ++
    paragraphNodes "Symbol:" (" " ++ conflict.symbol) ++ paragraphNodes "Rules:" "" ++
    [⟨"ul", "\n"⟩]

def closingNodes (conflict : Conflict) : List Node :=
  [⟨"/ul", "\n"⟩] ++
    paragraphNodes "Lookahead intersection:" (" " ++ ", ".intercalate conflict.intersection) ++
    [⟨"/div", "\n"⟩]

/-- The nodes of the block on one conflict, with its rules between the others. -/
def conflictNodes (grammar : Grammar) (entry : Conflict × Nat) : List Node :=
  openingNodes entry.1 entry.2 ++ entry.1.rules.flatMap (ruleNodes grammar) ++
    closingNodes entry.1

/-- The nodes of the page on some conflicts. -/
def conflictPageNodes (grammar : Grammar) (conflicts : List Conflict) : List Node :=
  [⟨"h4", "Grammar Conflicts (" ++ toString conflicts.length ++ " found)"⟩, ⟨"/h4", "\n"⟩] ++
    (conflicts.zipIdx 1).flatMap (conflictNodes grammar) ++ [⟨"/div", ""⟩]

/-- The nodes of the line to blame, where an empty line is none. -/
def lineNodes (line : String) : List Node :=
  if line = "" then []
  else [⟨"p", ""⟩, ⟨"strong", "Line:"⟩, ⟨"/strong", " "⟩, ⟨"code", line⟩, ⟨"/code", ""⟩,
    ⟨"/p", "\n"⟩]

/-- The nodes of the page on an error. -/
def errorPageNodes (message line : String) : List Node :=
  [⟨"h4", "Grammar Error"⟩, ⟨"/h4", "\n"⟩, ⟨"p class=\"error-text\"", message⟩, ⟨"/p", "\n"⟩] ++
    lineNodes line ++ [⟨"/div", ""⟩]

/-! ## Lines of the pages -/

theorem ended_append (left right : List String) :
    ended (left ++ right) = ended left ++ ended right := by
  simp [ended]

theorem writtenNodes_append (left right : List Node) :
    writtenNodes (left ++ right) = writtenNodes left ++ writtenNodes right := by
  simp [writtenNodes]

theorem intercalate_concat (lines : List String) (last : String) :
    "\n".intercalate (lines ++ [last]) = ended lines ++ last := by
  induction lines with
  | nil => simp [ended]
  | cons first rest ih =>
      obtain ⟨second, others, split⟩ := List.exists_cons_of_ne_nil
        (List.append_ne_nil_of_right_ne_nil rest (List.cons_ne_nil last []))
      rw [List.cons_append, split, String.intercalate_cons_cons, ← split, ih]
      simp [ended, String.append_assoc]

theorem ruleEntry_ok {position : Int} (valid : (itemAt? grammar.rules position).isSome) :
    ∃ line, ruleEntry grammar position = .ok line ∧
      ended [line] = writtenNodes (ruleNodes grammar position) := by
  obtain ⟨rule, found⟩ := Option.isSome_iff_exists.mp valid
  refine ⟨_, by rw [ruleEntry, Grammar.ruleText, itemAt, found]; rfl, ?_⟩
  simp (disch := decide) [ruleNodes, found, ended, writtenNodes, Node.written, entities_append,
    entities_eq_self, entities_repr, ← String.toList_inj]

theorem entities_name (kind : ConflictKind) : entities kind.name = kind.name := by
  cases kind with
  | shiftReduce => decide
  | reduceReduce => decide

/-- Lookups that all give the lines of some nodes give those of all nodes together. -/
theorem exists_mapM_ended {α β : Type} {items : List α} {lookup : α → Except LookupError β}
    {nodes : α → List Node} (lines : β → List String)
    (done : ∀ item ∈ items, ∃ value, lookup item = .ok value ∧
      ended (lines value) = writtenNodes (nodes item)) :
    ∃ values, items.mapM lookup = .ok values ∧
      ended (values.flatMap lines) = writtenNodes (items.flatMap nodes) := by
  induction items with
  | nil => exact ⟨[], rfl, rfl⟩
  | cons first rest ih =>
      obtain ⟨value, here, same⟩ := done first List.mem_cons_self
      obtain ⟨values, later, alike⟩ :=
        ih fun item member => done item (List.mem_cons_of_mem _ member)
      refine ⟨value :: values, by rw [List.mapM_cons, here, later]; rfl, ?_⟩
      rw [List.flatMap_cons, List.flatMap_cons, ended_append, writtenNodes_append, same, alike]

theorem ended_opening (conflict : Conflict) (count : Nat) :
    ended ["<div class=\"conflict-item\">",
        "<h5>Conflict " ++ toString count ++ ": " ++ entities conflict.kind.name ++ "</h5>",
        "<p><strong>State:</strong> " ++ toString conflict.state ++ "</p>",
        "<p><strong>Symbol:</strong> " ++ entities conflict.symbol ++ "</p>",
        "<p><strong>Rules:</strong></p>", "<ul>"] =
      writtenNodes (openingNodes conflict count) := by
  simp (disch := decide) [ended, writtenNodes, Node.written, openingNodes, paragraphNodes,
    entities_append, entities_eq_self, entities_repr, entities_natRepr, entities_name,
    ← String.toList_inj]

theorem ended_closing (conflict : Conflict) :
    ended ["</ul>", "<p><strong>Lookahead intersection:</strong> " ++
        entities (", ".intercalate conflict.intersection) ++ "</p>", "</div>"] =
      writtenNodes (closingNodes conflict) := by
  simp (disch := decide) [ended, writtenNodes, Node.written, closingNodes, paragraphNodes,
    entities_append, entities_eq_self, ← String.toList_inj]

theorem conflictBlock_written {entry : Conflict × Nat} (rulable : entry.1.Rulable grammar) :
    ∃ lines, conflictBlock grammar entry = .ok lines ∧
      ended lines = writtenNodes (conflictNodes grammar entry) := by
  obtain ⟨conflict, count⟩ := entry
  obtain ⟨rules, listed, same⟩ := exists_mapM_ended (fun line => [line])
    fun position member => ruleEntry_ok (rulable position member)
  refine ⟨_, by simp only [conflictBlock, listed, bind, Except.bind]; rfl, ?_⟩
  rw [List.flatMap_singleton'] at same
  rw [ended_append, ended_append, ended_opening, same, ended_closing, conflictNodes,
    writtenNodes_append, writtenNodes_append]

theorem ended_heading (count : Nat) :
    ended ["<h4>Grammar Conflicts (" ++ toString count ++ " found)</h4>"] =
      writtenNodes [⟨"h4", "Grammar Conflicts (" ++ toString count ++ " found)"⟩,
        ⟨"/h4", "\n"⟩] := by
  simp (disch := decide) [ended, writtenNodes, Node.written, entities_append, entities_eq_self,
    entities_natRepr, ← String.toList_inj]

theorem writtenNodes_last : writtenNodes [⟨"/div", ""⟩] = "</div>" := by
  decide

/-- The page on some conflicts is its front and its nodes. -/
theorem conflictPage_written (style : ReportStyle) (some : conflicts ≠ [])
    (rulable : ∀ conflict ∈ conflicts, conflict.Rulable grammar) :
    conflictPage style grammar conflicts =
      .ok (front style style.conflictClasses ++
        writtenNodes (conflictPageNodes grammar conflicts)) := by
  obtain ⟨blocks, done, same⟩ := exists_mapM_ended id
    fun entry (member : entry ∈ conflicts.zipIdx 1) =>
      conflictBlock_written (rulable entry.1 (List.fst_mem_of_mem_zipIdx member))
  rw [List.flatMap_id] at same
  have nonempty : conflicts.isEmpty = false := by simpa using some
  simp only [conflictPage, nonempty, done, bind, Except.bind]
  refine congrArg Except.ok ((intercalate_concat _ _).trans ?_)
  rw [← List.singleton_append, ← List.append_assoc style.opening, ended_append, ended_append, same,
    ended_heading, conflictPageNodes, writtenNodes_append, writtenNodes_append, writtenNodes_last]
  simp only [front, String.append_assoc]

theorem ended_message (message : String) :
    ended ["<h4>Grammar Error</h4>", "<p class=\"error-text\">" ++ entities message ++ "</p>"] =
      writtenNodes [⟨"h4", "Grammar Error"⟩, ⟨"/h4", "\n"⟩, ⟨"p class=\"error-text\"", message⟩,
        ⟨"/p", "\n"⟩] := by
  simp (disch := decide) [ended, writtenNodes, Node.written, entities_eq_self,
    ← String.toList_inj]

theorem ended_quotedLine (line : Option String) :
    ended (quotedLine line) = writtenNodes (lineNodes (line.getD "")) := by
  cases line with
  | none => rfl
  | some line =>
      by_cases empty : line = ""
      · subst empty
        rfl
      · simp (disch := decide) [quotedLine, lineNodes, empty, ended, writtenNodes, Node.written,
          entities_eq_self, ← String.toList_inj]

/-- The page on an error is its front and its nodes. -/
theorem errorPage_written (style : ReportStyle) (message : String) (line : Option String) :
    errorPage style message line =
      front style style.errorClasses ++ writtenNodes (errorPageNodes message (line.getD "")) := by
  refine (intercalate_concat _ _).trans ?_
  rw [← List.singleton_append, ← List.append_assoc style.opening, ended_append, ended_append,
    ended_message, ended_quotedLine, errorPageNodes, writtenNodes_append, writtenNodes_append,
    writtenNodes_last]
  simp only [front, String.append_assoc]

/-! ## Tags -/

def blockTags (rules : Nat) : List String :=
  ["div class=\"conflict-item\"", "h5", "/h5", "p", "strong", "/strong", "/p", "p", "strong",
      "/strong", "/p", "p", "strong", "/strong", "/p", "ul"] ++
    (List.replicate rules ["li", "/li"]).flatten ++
    ["/ul", "p", "strong", "/strong", "/p", "/div"]

/-- The tags of the page on conflicts with so many rules each. -/
def pageTags (counts : List Nat) : List String :=
  ["h4", "/h4"] ++ counts.flatMap blockTags ++ ["/div"]

theorem tags_ruleNodes {positions : List Int}
    (valid : ∀ position ∈ positions, (itemAt? grammar.rules position).isSome) :
    (positions.flatMap (ruleNodes grammar)).map Node.tag =
      (List.replicate positions.length ["li", "/li"]).flatten := by
  induction positions with
  | nil => rfl
  | cons position rest ih =>
      obtain ⟨rule, found⟩ := Option.isSome_iff_exists.mp (valid position List.mem_cons_self)
      have later := ih fun other member => valid other (List.mem_cons_of_mem _ member)
      rw [List.flatMap_cons, List.map_append, later, ruleNodes, found]
      rfl

theorem tags_blocks (rulable : ∀ conflict ∈ conflicts, conflict.Rulable grammar) (first : Nat) :
    ((conflicts.zipIdx first).flatMap (conflictNodes grammar)).map Node.tag =
      (conflicts.map (·.rules.length)).flatMap blockTags := by
  induction conflicts generalizing first with
  | nil => rfl
  | cons conflict rest ih =>
      obtain ⟨here, later⟩ := List.forall_mem_cons.mp rulable
      rw [List.zipIdx_cons, List.flatMap_cons, List.map_append, ih later, conflictNodes,
        List.map_append, List.map_append, tags_ruleNodes here]
      rfl

theorem tags_conflictPageNodes (rulable : ∀ conflict ∈ conflicts, conflict.Rulable grammar) :
    (conflictPageNodes grammar conflicts).map Node.tag =
      pageTags (conflicts.map (·.rules.length)) := by
  rw [conflictPageNodes, List.map_append, List.map_append, tags_blocks rulable]
  rfl

theorem bare_of_mem_blockTags (rules : Nat) : ∀ tag ∈ blockTags rules, Bare tag := by
  have entries : ∀ tag ∈ (List.replicate rules ["li", "/li"]).flatten, Bare tag := by
    intro tag member
    obtain ⟨entry, inside, here⟩ := List.mem_flatten.mp member
    rw [List.eq_of_mem_replicate inside] at here
    exact (by decide : ∀ tag ∈ ["li", "/li"], Bare tag) tag here
  exact List.forall_mem_append.mpr
    ⟨List.forall_mem_append.mpr ⟨by decide, entries⟩, by decide⟩

theorem bare_of_mem_pageTags (counts : List Nat) : ∀ tag ∈ pageTags counts, Bare tag := by
  have blocks : ∀ tag ∈ counts.flatMap blockTags, Bare tag := by
    intro tag member
    obtain ⟨rules, _, inside⟩ := List.mem_flatMap.mp member
    exact bare_of_mem_blockTags rules tag inside
  exact List.forall_mem_append.mpr ⟨List.forall_mem_append.mpr ⟨by decide, blocks⟩, by decide⟩

/-- The marks of a page on conflicts tell how many there are, with how many rules each. -/
theorem marks_conflictPage (some : conflicts ≠ [])
    (rulable : ∀ conflict ∈ conflicts, conflict.Rulable grammar) :
    ∃ page, conflictPage style grammar conflicts = .ok page ∧
      marks page = marks (front style style.conflictClasses) ++
        (pageTags (conflicts.map (·.rules.length))).flatMap
          fun tag => '<' :: (marks tag ++ ['>']) := by
  refine ⟨_, conflictPage_written style some rulable, ?_⟩
  rw [marks_append, marks_writtenNodes, tags_conflictPageNodes rulable]

theorem tags_lineNodes {line other : String} (alike : line = "" ↔ other = "") :
    (lineNodes line).map Node.tag = (lineNodes other).map Node.tag := by
  by_cases empty : line = ""
  · rw [empty, alike.mp empty]
  · simp [lineNodes, empty, mt alike.mpr empty]

theorem bare_of_mem_errorPageNodes (message line : String) :
    ∀ node ∈ errorPageNodes message line, Bare node.tag := by
  have heading : ∀ tag ∈ ["h4", "/h4", "p class=\"error-text\"", "/p"], Bare tag := by decide
  have quoted : ∀ tag ∈ ["p", "strong", "/strong", "code", "/code", "/p"], Bare tag := by decide
  have last : ∀ tag ∈ ["/div"], Bare tag := by decide
  refine List.forall_mem_append.mpr ⟨List.forall_mem_append.mpr ⟨?_, ?_⟩, ?_⟩
  · exact List.forall_mem_map.mp heading
  · unfold lineNodes
    split
    · exact fun node member => absurd member List.not_mem_nil
    · exact List.forall_mem_map.mp quoted
  · exact List.forall_mem_map.mp last

/-! ## Pages -/

/-- Text of a grammar is text on the pages of a style. -/
structure Inert (style : ReportStyle) : Prop where
  /-- Pages on as many conflicts with as many rules each have the same marks. -/
  conflictPage_marks : ∀ (left right : Grammar) (leftConflicts rightConflicts : List Conflict),
    (∀ conflict ∈ leftConflicts, conflict.Rulable left) →
    (∀ conflict ∈ rightConflicts, conflict.Rulable right) →
    leftConflicts.map (·.rules.length) = rightConflicts.map (·.rules.length) →
    ∃ leftPage rightPage, conflictPage style left leftConflicts = .ok leftPage ∧
      conflictPage style right rightConflicts = .ok rightPage ∧ marks leftPage = marks rightPage
  /-- Pages on errors have the same marks when both quote a line or none does. -/
  errorPage_marks : ∀ (message other : String) (line otherLine : Option String),
    (line.getD "" = "" ↔ otherLine.getD "" = "") →
    marks (errorPage style message line) = marks (errorPage style other otherLine)
  conflictPage_read : ∀ (grammar : Grammar) (conflicts : List Conflict), conflicts ≠ [] →
    (∀ conflict ∈ conflicts, conflict.Rulable grammar) → ∃ part,
      conflictPage style grammar conflicts = .ok (front style style.conflictClasses ++ part) ∧
        readNodes part = conflictPageNodes grammar conflicts
  errorPage_read : ∀ (message : String) (line : Option String), ∃ part,
    errorPage style message line = front style style.errorClasses ++ part ∧
      readNodes part = errorPageNodes message (line.getD "")

/--
Whatever the symbols, the rules, the messages and the lines are, they add no mark to a page, and
undoing the entities behind its tags gives them back.
-/
theorem inert (style : ReportStyle) : Inert style where
  conflictPage_marks := by
    intro left right leftConflicts rightConflicts leftRulable rightRulable alike
    by_cases empty : leftConflicts = []
    · subst empty
      obtain rfl : rightConflicts = [] := List.map_eq_nil_iff.mp alike.symm
      exact ⟨_, _, rfl, rfl, rfl⟩
    · have some : rightConflicts ≠ [] := fun none => by
        rw [none] at alike
        exact empty (List.map_eq_nil_iff.mp alike)
      obtain ⟨leftPage, leftDone, leftMarks⟩ := marks_conflictPage empty leftRulable
      obtain ⟨rightPage, rightDone, rightMarks⟩ := marks_conflictPage some rightRulable
      exact ⟨leftPage, rightPage, leftDone, rightDone, by rw [leftMarks, rightMarks, alike]⟩
  errorPage_marks := by
    intro message other line otherLine alike
    rw [errorPage_written, errorPage_written, marks_append, marks_append, marks_writtenNodes,
      marks_writtenNodes, errorPageNodes, errorPageNodes, List.map_append, List.map_append,
      List.map_append, List.map_append, tags_lineNodes alike]
    rfl
  conflictPage_read := by
    intro grammar conflicts some rulable
    refine ⟨_, conflictPage_written style some rulable,
      readNodes_writtenNodes fun node member => ?_⟩
    refine bare_of_mem_pageTags (conflicts.map (·.rules.length)) node.tag ?_
    rw [← tags_conflictPageNodes rulable]
    exact List.mem_map_of_mem member
  errorPage_read := by
    intro message line
    exact ⟨_, errorPage_written style message line,
      readNodes_writtenNodes (bare_of_mem_errorPageNodes message (line.getD ""))⟩

/-- A symbol of brackets and of what looks like an entity marks a page no more than a word. -/
theorem inert_brackets :
    ∃ grammar other page otherPage part,
      Grammar.ofLines ["$accept -> S $", "S -> S <b>&lt; S", "S -> n"] "$" "ε" = .ok grammar ∧
      Grammar.ofLines ["$accept -> S $", "S -> S or S", "S -> n"] "$" "ε" = .ok other ∧
      conflictPage {} grammar [⟨5, .shiftReduce, "<b>&lt;", [1], ["<b>&lt;"]⟩] = .ok page ∧
      conflictPage {} other [⟨5, .shiftReduce, "or", [1], ["or"]⟩] = .ok otherPage ∧
      marks page = marks otherPage ∧ page = front {} "conflict-report" ++ part ∧
      ⟨"/strong", " <b>&lt;"⟩ ∈ readNodes part ∧
      ⟨"li", "(1) S -> S <b>&lt; S"⟩ ∈ readNodes part := by
  have read : Rule.readAll ["$accept -> S $", "S -> S <b>&lt; S", "S -> n"] "ε" =
      .ok [⟨0, "$accept", ["S", "$"], "ε"⟩, ⟨1, "S", ["S", "<b>&lt;", "S"], "ε"⟩,
        ⟨2, "S", ["n"], "ε"⟩] := by decide
  have otherRead : Rule.readAll ["$accept -> S $", "S -> S or S", "S -> n"] "ε" =
      .ok [⟨0, "$accept", ["S", "$"], "ε"⟩, ⟨1, "S", ["S", "or", "S"], "ε"⟩,
        ⟨2, "S", ["n"], "ε"⟩] := by decide
  obtain ⟨grammar, _, built, rules, _⟩ := Grammar.ofLines_ok read "$"
  obtain ⟨other, _, otherBuilt, otherRules, _⟩ := Grammar.ofLines_ok otherRead "$"
  have rulable : ∀ conflict ∈ [(⟨5, .shiftReduce, "<b>&lt;", [1], ["<b>&lt;"]⟩ : Conflict)],
      conflict.Rulable grammar := by
    refine List.forall_mem_singleton.mpr (List.forall_mem_singleton.mpr ?_)
    rw [rules]
    rfl
  have otherRulable : ∀ conflict ∈ [(⟨5, .shiftReduce, "or", [1], ["or"]⟩ : Conflict)],
      conflict.Rulable other := by
    refine List.forall_mem_singleton.mpr (List.forall_mem_singleton.mpr ?_)
    rw [otherRules]
    rfl
  obtain ⟨page, otherPage, done, otherDone, alike⟩ :=
    (inert {}).conflictPage_marks _ _ _ _ rulable otherRulable rfl
  obtain ⟨part, split, same⟩ := (inert {}).conflictPage_read _ _ (List.cons_ne_nil _ _) rulable
  refine ⟨grammar, other, page, otherPage, part, built, otherBuilt, done, otherDone, alike,
    Except.ok.inj (done.symm.trans split), ?_, ?_⟩
  · rw [same]
    simp [conflictPageNodes, conflictNodes, openingNodes, paragraphNodes]
  · have entry : ruleNodes grammar 1 = [⟨"li", "(1) S -> S <b>&lt; S"⟩, ⟨"/li", "\n"⟩] := by
      rw [ruleNodes, rules]
      decide
    rw [same]
    simp [conflictPageNodes, conflictNodes, entry]

end Report

end GrammarWorkbench

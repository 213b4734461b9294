import MibLinker.Node.Rendering

/-!
# Reading a node from its text

What a line of a typed node is about is told by how the line begins, whatever the texts in it look
like, and the lines are told apart as long as no text has a line break of its own. So the text of a
typed node gives away its label and, for each attribute that has a line, whether it is set and to
what. In the text of any other node, the first space behind the label ends it, and the last
character is a brace, with which the first line of a typed node never ends.
-/

namespace MibLinker

/-! ## The lines of a typed node -/

/-- The attributes that have a line of their own in the text of a typed node. -/
inductive Clause where
  | valueSyntax
  | access
  | status
  | value
deriving DecidableEq

namespace Clause

def all : List Clause := [valueSyntax, access, status, value]

def line (clause : Clause) (text : String) : String :=
  match clause with
  | valueSyntax => "SYNTAX " ++ text
  | access => "ACCESS " ++ text
  | status => "STATUS " ++ text
  | value => " = \x7b " ++ text ++ " \x7d"

theorem mem_all (clause : Clause) : clause ∈ all := by
  cases clause <;> decide

/-- The role of a line is told by its first two characters, so no text passes for another role. -/
theorem line_inj {c c' : Clause} {t t' : String} : c.line t = c'.line t' ↔ c = c' ∧ t = t' := by
  rw [← String.toList_inj, ← String.toList_inj]
  cases c <;> cases c' <;> simp [line]

theorem newline_not_mem_line (clause : Clause) {text : String} (h : '\n' ∉ text.toList) :
    '\n' ∉ (clause.line text).toList := by
  cases clause <;> simp [line, h]

end Clause

def lines (text : String) : List (List Char) := List.splitOn '\n' text.toList

namespace TypedNode

def text? (node : TypedNode) : Clause → Option String
  | .valueSyntax => node.valueSyntax.map fun s => s.value.text
  | .access => node.access.map Access.keyword
  | .status => node.status.map Status.keyword
  | .value => node.value.map Value.render

def header (node : TypedNode) : String := node.label ++ " OBJECT-TYPE"

/-- Whether the label, the syntax and the value have no line break in their texts. -/
structure Flat (node : TypedNode) : Prop where
  label : '\n' ∉ node.label.toList
  valueSyntax : ∀ {text}, node.text? .valueSyntax = some text → '\n' ∉ text.toList
  value : ∀ {text}, node.text? .value = some text → '\n' ∉ text.toList

theorem clauses_eq (node : TypedNode) :
    node.clauses = Clause.all.filterMap fun clause => (node.text? clause).map clause.line := by
  obtain ⟨label, path, value, valueSyntax, access, status, module⟩ := node
  cases value <;> cases valueSyntax <;> cases access <;> cases status <;> rfl

/-- A text stands in the line of an attribute exactly when the attribute is set to it. -/
theorem line_mem_clauses {node : TypedNode} {clause : Clause} {text : String} :
    clause.line text ∈ node.clauses ↔ node.text? clause = some text := by
  rw [clauses_eq, List.mem_filterMap]
  constructor
  · rintro ⟨other, -, h⟩
    obtain ⟨t, set, same⟩ := Option.map_eq_some_iff.mp h
    obtain ⟨rfl, rfl⟩ := Clause.line_inj.mp same
    exact set
  · intro set
    exact ⟨clause, clause.mem_all, by rw [set, Option.map_some]⟩

theorem length_clauses (node : TypedNode) :
    node.clauses.length = Clause.all.countP fun clause => (node.text? clause).isSome := by
  rw [clauses_eq, List.length_filterMap_eq_countP]
  simp

namespace Flat

variable {node : TypedNode} (h : node.Flat)

include h

/-- The keywords have no line break either. -/
theorem text {clause : Clause} {text : String} (set : node.text? clause = some text) :
    '\n' ∉ text.toList := by
  cases clause with
  | valueSyntax => exact h.valueSyntax set
  | value => exact h.value set
  | access =>
      obtain ⟨access, -, rfl⟩ := Option.map_eq_some_iff.mp set
      cases access <;> decide
  | status =>
      obtain ⟨status, -, rfl⟩ := Option.map_eq_some_iff.mp set
      cases status <;> decide

theorem newline_not_mem {line : String} (mem : line ∈ node.header :: node.clauses) :
    '\n' ∉ line.toList := by
  rcases List.mem_cons.mp mem with rfl | mem
  · simp [header, h.label]
  · rw [clauses_eq, List.mem_filterMap] at mem
    obtain ⟨clause, -, set⟩ := mem
    obtain ⟨text, set', rfl⟩ := Option.map_eq_some_iff.mp set
    exact clause.newline_not_mem_line (h.text set')

/-- The lines of the text are those that it is made from. -/
theorem lines_render : lines node.render = (node.header :: node.clauses).map String.toList := by
  rw [lines, render, String.toList_intercalate]
  refine List.splitOn_intercalate '\n' (fun line mem => ?_) (by simp)
  obtain ⟨text, mem', rfl⟩ := List.mem_map.mp mem
  exact h.newline_not_mem mem'

end Flat

/-- The text of a typed node gives away the label and what is set, and nothing else is in it. -/
theorem render_eq_iff {x y : TypedNode} (hx : x.Flat) (hy : y.Flat) :
    x.render = y.render ↔ x.label = y.label ∧ ∀ clause, x.text? clause = y.text? clause := by
  constructor
  · intro same
    have lined : x.header :: x.clauses = y.header :: y.clauses := by
      refine (List.map_inj_right fun _ _ => String.toList_inj.mp).mp ?_
      rw [← hx.lines_render, ← hy.lines_render, same]
    obtain ⟨headers, clauses⟩ := List.cons.inj lined
    refine ⟨String.append_left_inj _ |>.mp headers, fun clause => Option.ext fun text => ?_⟩
    rw [← line_mem_clauses, clauses, line_mem_clauses]
  · rintro ⟨label, texts⟩
    have clauses : x.clauses = y.clauses := by
      rw [clauses_eq, clauses_eq]
      simp only [texts]
    rw [render, render, label, clauses]

end TypedNode

/-! ## Other nodes -/

/-- The text of the value; a value that is not set has the empty text. -/
def Node.valueText (node : Node) : String := (node.value.map Value.render).getD ""

theorem Node.render_of_untyped {node : Node} (h : node.kind ≠ .typed) :
    node.render = "\x7b " ++ node.label ++ " " ++ node.valueText ++ " \x7d" := by
  cases node with
  | typed n => exact absurd rfl h
  | plain n => rfl
  | object n => rfl

theorem Node.render_eq_iff {x y : Node} (hx : x.kind ≠ .typed) (hy : y.kind ≠ .typed)
    (spaceless : ' ' ∉ x.label.toList) (spaceless' : ' ' ∉ y.label.toList) :
    x.render = y.render ↔ x.label = y.label ∧ x.valueText = y.valueText := by
  rw [render_of_untyped hx, render_of_untyped hy]
  constructor
  · intro same
    have listed : x.label.toList ++ ' ' :: (x.valueText.toList ++ [' ', '\x7d']) =
        y.label.toList ++ ' ' :: (y.valueText.toList ++ [' ', '\x7d']) := by
      simpa [← String.toList_inj] using same
    have split := congrArg (List.splitOn ' ') listed
    rw [List.splitOn_append_cons_self_of_not_mem spaceless,
      List.splitOn_append_cons_self_of_not_mem spaceless'] at split
    have labels := (List.cons.inj split).1
    rw [labels] at listed
    have values := (List.cons.inj (List.append_cancel_left listed)).2
    exact ⟨String.toList_inj.mp labels, String.toList_inj.mp (List.append_cancel_right values)⟩
  · rintro ⟨label, value⟩
    rw [label, value]

/-- The one line of another node ends with a brace, and the first line of a typed node does not. -/
theorem Node.render_ne_typed {x : Node} {y : TypedNode} (hx : x.kind ≠ .typed) (hy : y.Flat)
    (label : '\n' ∉ x.label.toList) (value : '\n' ∉ x.valueText.toList) :
    x.render ≠ (Node.typed y).render := by
  rw [render_of_untyped hx]
  intro same
  have one : lines (Node.typed y).render =
      [("\x7b " ++ x.label ++ " " ++ x.valueText ++ " \x7d").toList] := by
    rw [← same]
    refine List.splitOn_eq_singleton ?_
    simp [label, value]
  have lined : lines (Node.typed y).render = _ := hy.lines_render
  rw [one, List.map_cons] at lined
  have brace : ("\x7b " ++ x.label ++ " " ++ x.valueText ++ " \x7d").toList.getLast? =
      some '\x7d' := by
    rw [String.toList_append, List.getLast?_append]
    rfl
  have letter : y.header.toList.getLast? = some 'E' := by
    rw [TypedNode.header, String.toList_append, List.getLast?_append]
    rfl
  rw [(List.cons.inj lined).1, letter] at brace
  cases brace

/-- The text of a node is unambiguous. That of a typed node whose texts have no line break has a
line for the label and one for each attribute that is set, in their order, and two such nodes have
one text only if they have one label and the same texts. Two nodes of other kinds whose labels have
no space have one text only if they have one label and one text of the value, and without line
breaks their text is not that of a typed node. -/
theorem rendering_unambiguous :
    (∀ node : TypedNode, node.Flat →
      lines node.render = ((node.label ++ " OBJECT-TYPE") ::
        Clause.all.filterMap fun clause => (node.text? clause).map clause.line).map String.toList ∧
      (lines node.render).length =
        1 + Clause.all.countP fun clause => (node.text? clause).isSome) ∧
    (∀ x y : TypedNode, x.Flat → y.Flat →
      (x.render = y.render ↔ x.label = y.label ∧ ∀ clause, x.text? clause = y.text? clause)) ∧
    (∀ x y : Node, x.kind ≠ .typed → y.kind ≠ .typed →
      ' ' ∉ x.label.toList → ' ' ∉ y.label.toList →
        (x.render = y.render ↔ x.label = y.label ∧ x.valueText = y.valueText)) ∧
    ∀ (x : Node) (y : TypedNode), x.kind ≠ .typed → y.Flat →
      '\n' ∉ x.label.toList → '\n' ∉ x.valueText.toList → x.render ≠ (Node.typed y).render := by
  refine ⟨fun node flat => ⟨?ordered, ?counted⟩, fun _ _ => TypedNode.render_eq_iff,
    fun _ _ => Node.render_eq_iff, fun _ _ => Node.render_ne_typed⟩
  case ordered =>
    rw [flat.lines_render, node.clauses_eq]
    rfl
  case counted =>
    rw [flat.lines_render, List.length_map, List.length_cons, node.length_clauses, Nat.add_comm]

/-- A label, a syntax and a value that look like lines of the text themselves: read from the text,
they are what they are, and the access is not set. -/
def TypedNode.disguised : TypedNode where
  label := "x OBJECT-TYPE ACCESS read-only"
  path := .empty
  value := some (.text "\x7d SYNTAX")
  valueSyntax := some ⟨0, ⟨"STATUS", some "current"⟩⟩
  access := none
  status := some .current
  module := none

theorem TypedNode.flat_disguised : disguised.Flat where
  label := by decide
  valueSyntax set := by
    obtain rfl := Option.some.inj set
    decide
  value set := by
    obtain rfl := Option.some.inj set
    decide

theorem rendering_unambiguous_of_disguised :
    (lines TypedNode.disguised.render).length = 4 ∧
      (∀ node : TypedNode, node.Flat → node.render = TypedNode.disguised.render →
        node.access = none) ∧
      (Node.plain ⟨"x", .empty, none⟩).render ≠ (Node.typed .disguised).render := by
  obtain ⟨lined, typed, -, apart⟩ := rendering_unambiguous
  refine ⟨(lined _ TypedNode.flat_disguised).2, fun node flat same => ?_,
    apart _ _ (by decide) TypedNode.flat_disguised (by decide) (by decide)⟩
  have texts := ((typed node _ flat TypedNode.flat_disguised).mp same).2 .access
  exact Option.map_eq_none_iff.mp texts

end MibLinker

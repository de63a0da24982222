import DiagramSync.Diagram.Basic

/-!
What can be wrong with the markup of a diagram.
-/

namespace DiagramSync

/-- A fault and, where there is one, the number of its line, counted from 1. -/
inductive Fault where
  | empty
  | wrongDeclaration (line : Nat) (expected : Kind) (found : String)
  | wrongCloser (line : Nat) (closer opener : Char) (openedAt : Nat)
  | strayCloser (line : Nat) (closer : Char)
  | openQuote (line : Nat)
  | openBracket (line : Nat) (opener : Char)
  | strayEnd (line : Nat)
  | openGroups (count : Nat)
  | openEdgeLabel (line : Nat)
  | missingNodeId (line : Nat)
  | badNodeId (line : Nat) (id : String)
  | badEntityName (line : Nat) (name : String)
  | unknownToken (line : Nat) (token : String)
  | missingLabel (line : Nat)
  | unknownStatement (line : Nat) (statement : String)
  | incompleteAttribute (line : Nat)
  | badAttributeType (line : Nat) (type : String)
  | badAttributeName (line : Nat) (name : String)
  | unknownKeyMark (line : Nat) (mark : String)
  deriving Repr, DecidableEq

namespace Kind

def keyword : Kind → String
  | .journey => "flowchart"
  | .entityRelationship => "erDiagram"

end Kind

namespace Fault

def message : Fault → String
  | .empty => "diagram is empty"
  | .wrongDeclaration line expected found =>
    s!"line {line}: expected a `{expected.keyword}` declaration, found `{found}`"
  | .wrongCloser line closer opener openedAt =>
    s!"line {line}: `{closer}` does not close `{opener}` opened on line {openedAt}"
  | .strayCloser line closer => s!"line {line}: unmatched `{closer}`"
  | .openQuote line => s!"line {line}: unterminated quote"
  | .openBracket line opener => s!"line {line}: `{opener}` is never closed"
  | .strayEnd line => s!"line {line}: `end` without an open subgraph"
  | .openGroups count => s!"{count} subgraph(s) never closed with `end`"
  | .openEdgeLabel line => s!"line {line}: unterminated edge label"
  | .missingNodeId line => s!"line {line}: node without an identifier"
  | .badNodeId line id => s!"line {line}: invalid node identifier `{id}`"
  | .badEntityName line name => s!"line {line}: invalid entity name `{name}`"
  | .unknownToken line token => s!"line {line}: unknown relationship token `{token}`"
  | .missingLabel line => s!"line {line}: relationship without a `: label`"
  | .unknownStatement line statement => s!"line {line}: unrecognized statement `{statement}`"
  | .incompleteAttribute line => s!"line {line}: attribute needs a type and a name"
  | .badAttributeType line type => s!"line {line}: invalid attribute type `{type}`"
  | .badAttributeName line name => s!"line {line}: invalid attribute name `{name}`"
  | .unknownKeyMark line mark => s!"line {line}: unknown key marker `{mark}`"

end Fault

abbrev NumberedLine := Nat × List Char

end DiagramSync

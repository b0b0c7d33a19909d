/-! # The syntax behind a node: its kind and the few links that the analyses follow -/

namespace Tierwise

/-- A node is named by its place in the order of creation. -/
abbrev NodeRef := Nat

inductive SyntaxKind where
  | program
  | functionExpression
  | functionDeclaration
  | variableDeclaration
  | variableDeclarator
  | property
  | assignmentExpression
  | expressionStatement
  | objectExpression
  | newExpression
  | callExpression
  | tryStatement
  | catchClause
  | forStatement
  | returnStatement
  | throwStatement
  | blockStatement
  | ifStatement
  | identifier
  | literal
  | other
deriving DecidableEq, Repr, Inhabited

namespace SyntaxKind

def all : List SyntaxKind :=
  [program, functionExpression, functionDeclaration, variableDeclaration, variableDeclarator, property,
    assignmentExpression, expressionStatement, objectExpression, newExpression, callExpression, tryStatement,
    catchClause, forStatement, returnStatement, throwStatement, blockStatement, ifStatement, identifier, literal,
    other]

def name : SyntaxKind → String
  | program => "Program"
  | functionExpression => "FunctionExpression"
  | functionDeclaration => "FunctionDeclaration"
  | variableDeclaration => "VariableDeclaration"
  | variableDeclarator => "VariableDeclarator"
  | property => "Property"
  | assignmentExpression => "AssignmentExpression"
  | expressionStatement => "ExpressionStatement"
  | objectExpression => "ObjectExpression"
  | newExpression => "NewExpression"
  | callExpression => "CallExpression"
  | tryStatement => "TryStatement"
  | catchClause => "CatchClause"
  | forStatement => "ForStatement"
  | returnStatement => "ReturnStatement"
  | throwStatement => "ThrowStatement"
  | blockStatement => "BlockStatement"
  | ifStatement => "IfStatement"
  | identifier => "Identifier"
  | literal => "Literal"
  | other => "Other"

def ofName? (s : String) : Option SyntaxKind :=
  all.find? (·.name == s)

end SyntaxKind

/-- Identity of a piece of syntax within one source unit. -/
abbrev ConstructId := UInt64

/-- The expression inside an expression statement, with the right side of an assignment. -/
structure Wrapped where
  kind : SyntaxKind
  right : Option ConstructId
deriving DecidableEq, Repr, Inhabited

/-- A piece of syntax. The link to an object entry is taken on trust and may point nowhere. -/
structure Construct where
  id : ConstructId
  kind : SyntaxKind
  init : Option ConstructId := none
  expression : Option Wrapped := none
  declarations : List ConstructId := []
  objectEntry : Option NodeRef := none
deriving DecidableEq, Repr, Inhabited

namespace Construct

def display (c : Construct) : String := "#" ++ toString c.id.toNat

def right (c : Construct) : Option ConstructId := c.expression.bind Wrapped.right

def isFunctionExpression (c : Construct) : Bool := c.kind == .functionExpression

def isFunctionDeclaration (c : Construct) : Bool := c.kind == .functionDeclaration

def isVariableDeclaration (c : Construct) : Bool := c.kind == .variableDeclaration

def isVariableDeclarator (c : Construct) : Bool := c.kind == .variableDeclarator

def isProperty (c : Construct) : Bool := c.kind == .property

def isExpressionStatement (c : Construct) : Bool := c.kind == .expressionStatement

def isObjectExpression (c : Construct) : Bool := c.kind == .objectExpression

def isNewExpression (c : Construct) : Bool := c.kind == .newExpression

def isTry (c : Construct) : Bool := c.kind == .tryStatement

def isCatch (c : Construct) : Bool := c.kind == .catchClause

def isFor (c : Construct) : Bool := c.kind == .forStatement

/-- An assignment standing as a statement of its own. -/
def isAssignment (c : Construct) : Bool :=
  c.isExpressionStatement && (c.expression.map Wrapped.kind == some .assignmentExpression)

/-- An object literal or an instantiation. -/
def makesObject (c : Construct) : Bool := c.isObjectExpression || c.isNewExpression

/-- `c` has `value` as its initializer or as the right side of its assignment. -/
def binds (c value : Construct) : Bool :=
  c.init == some value.id || c.right == some value.id

/-- What the syntax of both ends alone decides about crossing an edge from `source` to `target`.
A function value belongs to whatever declares it. A new object belongs to the declarator or assignment it is bound
by, and to no other, and to any declaration or property above it. -/
def crossing? (source target : Construct) (isObjectEntry : Bool) : Option Bool :=
  if target.isFunctionExpression &&
      (source.isVariableDeclarator || source.isVariableDeclaration || source.isProperty || source.isAssignment) then
    some true
  else if target.makesObject && (source.isVariableDeclarator || source.isAssignment) then
    some (source.binds target)
  else if target.makesObject && (source.isVariableDeclaration || source.isProperty) then
    some true
  else if isObjectEntry && source.isVariableDeclarator && source.init == some target.id then
    some true
  else
    none

end Construct

end Tierwise

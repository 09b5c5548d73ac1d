/-!
# Node kinds and field names of a Go syntax tree

* `Kind` — what a node of the tree is: a declaration, a statement, an expression, a type or a leaf.
  Keywords, operators and punctuation share the kind `token`; the text tells them apart.
* `Field` — the role a child plays below its parent.
-/

namespace CodeGraph.Syntax

/-- What a node of a Go syntax tree is. -/
inductive Kind where
  -- files and declarations
  | sourceFile | packageClause | importDeclaration | importSpec | importSpecList
  | dotName | blankIdentifier
  | constDeclaration | constSpec | varDeclaration | varSpec | varSpecList
  | functionDeclaration | methodDeclaration
  | typeParameterList | typeParameterDeclaration | typeConstraint
  | parameterList | parameterDeclaration | variadicParameterDeclaration
  | typeAlias | typeDeclaration | typeSpec
  -- types
  | parenthesizedType | genericType | typeArguments | pointerType | arrayType
  | implicitLengthArrayType | sliceType | structType | negatedType
  | fieldDeclarationList | fieldDeclaration | interfaceType | methodElem | typeElem
  | mapType | channelType | functionType | qualifiedType
  -- statements
  | block | emptyStatement | expressionStatement | sendStatement | receiveStatement
  | incStatement | decStatement | assignmentStatement | shortVarDeclaration
  | labeledStatement | fallthroughStatement | breakStatement | continueStatement
  | gotoStatement | returnStatement | goStatement | deferStatement | ifStatement
  | forStatement | forClause | rangeClause
  | expressionSwitchStatement | expressionCase | defaultCase
  | typeSwitchStatement | typeCase | selectStatement | communicationCase
  -- expressions
  | expressionList | parenthesizedExpression | callExpression | variadicArgument | argumentList
  | selectorExpression | indexExpression | sliceExpression | typeAssertionExpression
  | typeConversionExpression | typeInstantiationExpression
  | compositeLiteral | literalValue | literalElement | keyedElement | funcLiteral
  | unaryExpression | binaryExpression
  -- leaves
  | identifier | typeIdentifier | fieldIdentifier | packageIdentifier | labelName
  | rawStringLiteral | rawStringLiteralContent
  | interpretedStringLiteral | interpretedStringLiteralContent | escapeSequence
  | intLiteral | floatLiteral | imaginaryLiteral | runeLiteral
  | nilWord | trueWord | falseWord | iotaWord
  | comment | token | error
  deriving DecidableEq, Repr, Inhabited

/-- The role a child plays below its parent. -/
inductive Field where
  | aliases | alternative | arguments | body | capacity | channel | communication | condition
  | consequence | element | field | finish | function | index | initializer | key | label
  | left | length | name | operand | operator | package | parameters | path | receiver
  | result | right | start | tag | type | typeArguments | typeParameters | update | value
  deriving DecidableEq, Repr, Inhabited

end CodeGraph.Syntax

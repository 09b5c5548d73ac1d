import CodeGraph.Syntax.Statements

/-!
# Files

* `readWith` — all rules tied together, up to a bound on how deep they call each other.
* `sourceFile` — top-level declarations and statements, each with its terminator.
* `Node.ofText` — the tree of a text.  A text that cannot be read to its end has an error node: at
  its first character if a single terminator is all that is lacking, at the start of the item if the
  text ends in the middle of one, and else after the last token that could be read.
* Comments are white space to the rules; `Node.withComments` puts each of them below the innermost
  node that has text on both sides of it.
-/

namespace CodeGraph.Syntax

open Reader

/-! ### Tying the rules -/

/-- The rules, calling each other at most `depth` levels deep. -/
def readWith : (depth : Nat) → Rules
  | 0, _ => fail
  | depth + 1, goal =>
    let rules := readWith depth
    match goal with
    | .type lineEnds => typeRule rules lineEnds
    | .expression s => indivisible (expressionRule rules s)
    | .binary s level => binaryRule rules s level
    | .operand s => operandRule rules s
    | .parameters => parametersRule rules
    | .arguments => argumentsRule rules
    | .literalValue => literalValueRule rules
    | .block => blockRule rules
    | .statement => statementRule rules

/-- Whether nothing but blanks is left. -/
def nothingLeft (i : Input) : Bool := (i.skip false).rest.isEmpty

/-- The words that open a declaration. -/
def declarationWords : List String := ["package", "import", "const", "var", "type", "func"]

/-- A top-level declaration or statement.  Where the text ends inside something indivisible, or a
group holds what opens like a declaration, the whole item is at fault. -/
def topLevelItem (rules : Rules) : Reader Node := fun i =>
  let word := wordAhead false i
  let item := topLevelDeclaration rules <|> do
    guardThat fun _ => !(["package", "import"].contains word)
    rules .statement
  let upTo (p : Place) : Input := (i.drop (p.offset - i.place.offset)).skip false
  match item i with
  | .done n j => .done n j
  | .stuck m =>
    let cutOff := m.whole && (upTo m.wanted).rest.isEmpty
    let overrun := ["import", "const", "var"].contains word && i.begun.offset < m.begun.offset &&
      declarationWords.contains (upTo m.begun).word
    .stuck (if cutOff || overrun then { m with settled := (i.skip false).place } else m)

mutual
/-- Whether a top-level statement ends in a type or in the braces of a block.  The end of the text
is no terminator for such a one. -/
def Node.endsOpen : Node → Bool
  | .node l cs =>
    match l.kind with
    | .block | .typeSpec | .typeAlias => true
    | .varSpec => (cs.getLast?.bind Node.field) == some .type
    | .ifStatement | .forStatement | .labeledStatement | .varDeclaration | .typeDeclaration =>
      Node.lastEndsOpen cs
    | _ => false

/-- Whether the last node of a list ends in a type or in the braces of a block. -/
def Node.lastEndsOpen : List Node → Bool
  | [] => false
  | [n] => n.endsOpen
  | _ :: n :: ns => Node.lastEndsOpen (n :: ns)
end

/-- The terminator of a top-level item. -/
def itemEnd (n : Node) : Reader Unit := do
  guardThat fun i => !(n.endsOpen && (i.skip true).rest.isEmpty)
  terminator

/-- Whether a node is a declaration that stands only at the top level of a file. -/
def Node.isTopLevel (n : Node) : Bool :=
  [.packageClause, .importDeclaration, .functionDeclaration, .methodDeclaration].contains n.kind

/-- Whether an item and the next, or none, lack nothing but a terminator between them. -/
def Node.runsInto (n : Node) (next : Option Node) : Bool :=
  let isExpression (m : Node) := m.kind = .expressionStatement
  let isAtom (m : Node) := isExpression m && m.children.all (·.children.isEmpty)
  match next with
  | none => true
  | some m =>
    if isExpression m then
      if isExpression n then isAtom n && isAtom m else n.isTopLevel && !isAtom m
    else if m.kind = .assignmentStatement ∨ m.kind = .shortVarDeclaration then !isExpression n
    else true

/-- Items up to the end of the text, each with its terminator; `spare` of them may lack it, and if
any may, so may package clauses. -/
def itemsUpTo (rules : Rules) : (fuel spare : Nat) → Reader (List Node)
  | 0, _ => fail
  | fuel + 1, spare => do
    if nothingLeft (← peek) then pure []
    else
      let n ← topLevelItem rules
      match ← maybe (itemEnd n), spare with
      | some (), spare => (n :: ·) <$> itemsUpTo rules fuel spare
      | none, 0 => fail
      | none, spare + 1 =>
        let ns ← itemsUpTo rules fuel (if n.kind = .packageClause then spare + 1 else spare)
        guardThat fun _ => n.runsInto ns.head?
        pure (n :: ns)

/-- A whole file, in which `spare` items may lack their terminator. -/
def sourceFile (rules : Rules) (spare : Nat) : Reader Node := fun i =>
  (Node.branch .sourceFile <$> itemsUpTo rules (i.rest.length + 1) spare) i

/-! ### Comments -/

/-- The comments in a stretch of text between two leaves. -/
def commentsIn (text : SourceText) : (fuel : Nat) → Place → (stop : Nat) → List Node
  | 0, _, _ => []
  | fuel + 1, p, stop =>
    if stop ≤ p.offset then []
    else
      match text.chars[p.offset]? with
      | none => []
      | some c =>
        match (if c = '/' then
            Lexeme.commentLength? (text.chars.extract p.offset stop).toList else none) with
        | some n =>
          let q := ((text.chars.extract p.offset (p.offset + n)).toList.foldl Place.after p)
          .leaf .comment p q :: commentsIn text fuel q stop
        | none => commentsIn text fuel (p.after c) stop

mutual
/-- Put the comments between the children of every node among them. -/
def Node.withComments (text : SourceText) : Node → Node
  | .node l [] => .node l []
  | .node l (c :: cs) => .node l (c.withComments text :: weave text c.stop cs)

/-- The rest of a list of children, with the comments after a place and between them. -/
def weave (text : SourceText) (p : Place) : List Node → List Node
  | [] => []
  | c :: cs =>
    commentsIn text (c.start.offset - p.offset) p c.start.offset ++
      c.withComments text :: weave text c.stop cs
end

/-- The comments before the first and after the last child of a whole file. -/
def Node.withOuterComments (text : SourceText) (root : Node) : Node :=
  let size := text.chars.size
  let start := root.children.head?.map Node.start
  let stop := (root.children.getLast?.map Node.stop).getD .start
  let before := match start with
    | some p => commentsIn text p.offset .start p.offset
    | none => []
  .node root.label (before ++ root.children ++ commentsIn text size stop size)

/-! ### Trees of texts -/

/-- The tree of a text that cannot be read, with its fault at a place. -/
def Node.ofFault (p : Place) : Node := .branch .sourceFile [.defective p p []]

/-- The tree of a text.  A single terminator that is lacking is a fault of the whole text, any other
fault is where reading gets stuck. -/
def Node.ofText (s : String) : Node :=
  let input := Input.ofString s
  let input := if input.rest.head? = some '\uFEFF' then input.drop 1 else input
  let input := (input.drop (input.rest.takeWhile Lexeme.isSpace).length)
  let rules := readWith (32 * (input.rest.length + 2))
  match sourceFile rules 0 input.settle with
  | .done root _ =>
    let text := SourceText.ofString s
    (root.withComments text).withOuterComments text
  | .stuck m =>
    match sourceFile rules 1 input.settle with
    | .done _ _ => .ofFault input.place
    | .stuck _ => .ofFault m.settled

end CodeGraph.Syntax

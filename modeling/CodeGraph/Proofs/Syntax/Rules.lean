import CodeGraph.Proofs.Syntax.Reader
import CodeGraph.Syntax.File

/-!
# The rules stay in the text

Every rule stays in the text it is started in if the rules that it asks for do, and so do all rules tied
together: `staysIn_readWith`.
-/

namespace CodeGraph.Syntax

open Reader

variable {t : SourceText} {rules : Rules} [hrules : ∀ g, (rules g).StaysIn t]

include hrules

/-! ### Types -/

instance staysIn_typeElem (kind : Kind) (lineEnds : Bool) : (typeElem rules kind lineEnds).StaysIn t := by
  unfold typeElem
  infer_instance

instance staysIn_typeArguments : (typeArguments rules).StaysIn t := by
  unfold typeArguments
  infer_instance

instance staysIn_typeParameterDeclaration : (typeParameterDeclaration rules).StaysIn t := by
  unfold typeParameterDeclaration
  infer_instance

instance staysIn_typeParameters : (typeParameters rules).StaysIn t := by
  unfold typeParameters
  infer_instance

instance staysIn_result (lineEnds : Bool) : (result rules lineEnds).StaysIn t := by
  unfold result
  infer_instance

instance staysIn_namedParameters : (namedParameters rules).StaysIn t := by
  unfold namedParameters parameterEnd
  infer_instance

instance staysIn_variadicParameter : (variadicParameter rules).StaysIn t := by
  unfold variadicParameter
  infer_instance

instance staysIn_unnamedParameter : (unnamedParameter rules).StaysIn t := by
  unfold unnamedParameter parameterEnd
  infer_instance

instance staysIn_parametersRule : (parametersRule rules).StaysIn t := by
  unfold parametersRule
  infer_instance

omit hrules in
instance staysIn_rawStringLiteral : rawStringLiteral.StaysIn t := by
  refine ⟨(yields_symbol _).bind fun quote _ => Yields.peek.bind fun i hi => ?_⟩
  intro _ n k _ h
  dsimp only at h
  split at h
  next =>
    cases h
    exact ⟨((hi.drop _).1.drop 1).1, trivial⟩
  next => cases h

omit hrules in
instance staysIn_stringPieces (fuel : Nat) : (stringPieces fuel).StaysIn t := by
  induction fuel with
  | zero => exact .fail
  | succ fuel ih =>
    refine ⟨fun i ns k hi h => ?_⟩
    simp only [stringPieces] at h
    split at h
    next =>
      cases h
      exact ⟨(hi.drop 1).1, trivial⟩
    next =>
      split at h
      next kind n _ =>
        split at h
        next hrest =>
          cases h
          exact ih.stays (hi.drop n).1 hrest
        next => cases h
      next => cases h

omit hrules in
instance staysIn_interpretedStringLiteral : (interpretedStringLiteral).StaysIn t := by
  unfold interpretedStringLiteral
  infer_instance

omit hrules in
instance staysIn_stringLiteral : (stringLiteral).StaysIn t := by
  unfold stringLiteral
  infer_instance

omit hrules in
instance staysIn_typeName (reserved : List String) (lineEnds : Bool) :
    (typeName reserved lineEnds).StaysIn t := by
  unfold typeName
  infer_instance

instance staysIn_applied (lineEnds : Bool) (n : Node) : (applied rules lineEnds n).StaysIn t := by
  unfold applied
  infer_instance

instance staysIn_namedType (reserved : List String) (lineEnds : Bool) :
    (namedType rules reserved lineEnds).StaysIn t := by
  unfold namedType
  infer_instance

instance staysIn_embeddedField : (embeddedField rules).StaysIn t := by
  unfold embeddedField
  infer_instance

instance staysIn_namedFields : (namedFields rules).StaysIn t := by
  unfold namedFields
  infer_instance

omit hrules in
instance staysIn_fieldTag : (fieldTag).StaysIn t := by
  unfold fieldTag
  infer_instance

instance staysIn_fieldDeclaration : (fieldDeclaration rules).StaysIn t := by
  unfold fieldDeclaration
  infer_instance

instance staysIn_fieldDeclarationList : (fieldDeclarationList rules).StaysIn t := by
  unfold fieldDeclarationList
  infer_instance

instance staysIn_methodElem : (methodElem rules).StaysIn t := by
  unfold methodElem
  infer_instance

instance staysIn_interfaceBody : (interfaceBody rules).StaysIn t := by
  unfold interfaceBody
  infer_instance

instance staysIn_bracketType (lineEnds : Bool) : (bracketType rules lineEnds).StaysIn t := by
  unfold bracketType
  infer_instance

instance staysIn_functionType (lineEnds : Bool) : (functionType rules lineEnds).StaysIn t := by
  unfold functionType
  infer_instance

instance staysIn_channelType (lineEnds : Bool) : (channelType rules lineEnds).StaysIn t := by
  unfold channelType
  infer_instance

instance staysIn_mapType (lineEnds : Bool) : (mapType rules lineEnds).StaysIn t := by
  unfold mapType
  infer_instance

instance staysIn_implicitLengthArrayType : (implicitLengthArrayType rules).StaysIn t := by
  unfold implicitLengthArrayType
  infer_instance

instance staysIn_parenthesizedType : (parenthesizedType rules).StaysIn t := by
  unfold parenthesizedType
  infer_instance

instance staysIn_typeRule (lineEnds : Bool) : (typeRule rules lineEnds).StaysIn t := by
  unfold typeRule
  refine .andThen fun _ => ?_
  split <;> infer_instance

/-! ### Expressions -/

omit hrules in
instance staysIn_binaryOperator (s : Setting) (level : Nat) : (binaryOperator s level).StaysIn t := by
  unfold binaryOperator
  refine .andThen fun _ => ?_
  split <;> infer_instance

instance staysIn_binaryRule (s : Setting) (level : Nat) : (binaryRule rules s level).StaysIn t := by
  unfold binaryRule
  infer_instance

instance staysIn_expressionList (s : Setting) : (expressionList rules s).StaysIn t := by
  unfold expressionList
  infer_instance

instance staysIn_argument : (argument rules).StaysIn t := by
  unfold argument
  infer_instance

instance staysIn_argumentsRule : (argumentsRule rules).StaysIn t := by
  unfold argumentsRule
  infer_instance

instance staysIn_specialArguments : (specialArguments rules).StaysIn t := by
  unfold specialArguments
  infer_instance

instance staysIn_literalElement : (literalElement rules).StaysIn t := by
  unfold literalElement
  infer_instance

instance staysIn_elementOrKeyed : (elementOrKeyed rules).StaysIn t := by
  unfold elementOrKeyed
  infer_instance

instance staysIn_literalValueRule : (literalValueRule rules).StaysIn t := by
  unfold literalValueRule
  infer_instance

instance staysIn_compositeLiteral (type : Node) : (compositeLiteral rules type).StaysIn t := by
  unfold compositeLiteral
  infer_instance

instance staysIn_typedOperand (s : Setting) : (typedOperand rules s).StaysIn t := by
  unfold typedOperand
  refine .andThen fun _ => .otherwise (.andThen fun type => ?_)
  split
  · infer_instance
  · refine .andThen fun i => ?_
    dsimp only
    split
    · infer_instance
    · split
      · refine .andThen fun arguments => ?_
        split
        · infer_instance
        · split <;> infer_instance
      · infer_instance

instance staysIn_functionLiteral : (functionLiteral rules).StaysIn t := by
  unfold functionLiteral
  infer_instance

instance staysIn_allocation (s : Setting) (word : String) :
    (allocation rules s word).StaysIn t := by
  unfold allocation
  infer_instance

omit hrules in
instance staysIn_numberLiteral : (numberLiteral).StaysIn t := by
  unfold numberLiteral
  refine .andThen fun _ => ?_
  split <;> infer_instance

instance staysIn_primaryBase (s : Setting) : (primaryBase rules s).StaysIn t := by
  unfold primaryBase
  refine .andThen fun _ => ?_
  split <;> infer_instance

instance staysIn_indexOrSlice (n : Node) : (indexOrSlice rules n).StaysIn t := by
  unfold indexOrSlice
  infer_instance

instance staysIn_instantiatedCall (s : Setting) (n : Node) :
    (instantiatedCall rules s n).StaysIn t := by
  unfold instantiatedCall
  infer_instance

instance staysIn_instantiation (n : Node) : (instantiation rules n).StaysIn t := by
  unfold instantiation
  dsimp only
  split <;> infer_instance

instance staysIn_bracketSuffix (n : Node) : (bracketSuffix rules n).StaysIn t := by
  unfold bracketSuffix
  refine .andThen fun _ => ?_
  split <;> infer_instance

instance staysIn_suffix (s : Setting) (n : Node) : (suffix rules s n).StaysIn t := by
  unfold suffix
  refine .andThen fun i => ?_
  split
  · infer_instance
  · split
    · infer_instance
    · infer_instance
    · infer_instance
    · infer_instance
    · split <;> infer_instance
    · infer_instance

instance staysIn_suffixes (s : Setting) (fuel : Nat) (n : Node) : (suffixes rules s fuel n).StaysIn t := by
  induction fuel generalizing n with
  | zero => exact .pure n
  | succ fuel ih =>
    refine ⟨fun i m k hi h => ?_⟩
    simp only [suffixes] at h
    split at h
    next m j hj => exact (ih m).stays ((staysIn_suffix s n).stays hi hj).1 h
    next =>
      cases h
      exact ⟨hi, trivial⟩

instance staysIn_operandRule (s : Setting) : (operandRule rules s).StaysIn t := by
  unfold operandRule
  refine .andThen fun i => .otherwise (.andThen fun j => ?_)
  split <;> infer_instance

instance staysIn_expressionRule (s : Setting) : (expressionRule rules s).StaysIn t := by
  unfold expressionRule
  infer_instance

/-! ### Declarations -/

omit hrules in
instance staysIn_group {spec : Reader Node} [spec.StaysIn t] : (group spec).StaysIn t := by
  unfold group
  infer_instance

instance staysIn_specValues : (specValues rules).StaysIn t := by
  unfold specValues
  infer_instance

instance staysIn_constSpec : (constSpec rules).StaysIn t := by
  unfold constSpec
  infer_instance

instance staysIn_varSpec : (varSpec rules).StaysIn t := by
  unfold varSpec
  infer_instance

instance staysIn_typeSpec : (typeSpec rules).StaysIn t := by
  unfold typeSpec
  infer_instance

instance staysIn_constDeclaration : (constDeclaration rules).StaysIn t := by
  unfold constDeclaration
  infer_instance

instance staysIn_varDeclaration : (varDeclaration rules).StaysIn t := by
  unfold varDeclaration
  infer_instance

instance staysIn_typeDeclaration : (typeDeclaration rules).StaysIn t := by
  unfold typeDeclaration
  infer_instance

omit hrules in
instance staysIn_packageClause : (packageClause).StaysIn t := by
  unfold packageClause
  infer_instance

omit hrules in
instance staysIn_importName : (importName).StaysIn t := by
  unfold importName
  infer_instance

omit hrules in
instance staysIn_importSpec : (importSpec).StaysIn t := by
  unfold importSpec
  infer_instance

omit hrules in
instance staysIn_importDeclaration : (importDeclaration).StaysIn t := by
  unfold importDeclaration
  infer_instance

instance staysIn_functionBody : (functionBody rules).StaysIn t := by
  unfold functionBody
  infer_instance

instance staysIn_functionDeclaration : (functionDeclaration rules).StaysIn t := by
  unfold functionDeclaration
  infer_instance

instance staysIn_methodDeclaration : (methodDeclaration rules).StaysIn t := by
  unfold methodDeclaration
  infer_instance

instance staysIn_topLevelDeclaration : (topLevelDeclaration rules).StaysIn t := by
  unfold topLevelDeclaration
  refine .andThen fun _ => ?_
  split <;> infer_instance

/-! ### Statements -/

instance staysIn_assigned (kind : Kind) (left operator : Node) (s : Setting) :
    (assigned rules kind left operator s).StaysIn t := by
  unfold assigned
  infer_instance

instance staysIn_simpleStatement (s right : Setting) : (simpleStatement rules s right).StaysIn t := by
  unfold simpleStatement
  refine @StaysIn.indivisible _ _ _ (.andThen fun list => .andThen fun i => ?_)
  split
  · infer_instance
  · infer_instance
  · infer_instance
  · infer_instance
  · split
    · infer_instance
    · split <;> infer_instance
  · infer_instance
  · infer_instance

instance staysIn_labeledStatement : (labeledStatement rules).StaysIn t := by
  unfold labeledStatement
  infer_instance

instance staysIn_statements (absent : Input → Bool) : (statements rules absent).StaysIn t := by
  unfold statements
  infer_instance

instance staysIn_blockRule : (blockRule rules).StaysIn t := by
  unfold blockRule
  infer_instance

omit hrules in
instance staysIn_beforeBlock {read : NameLiterals → Reader (List Node)} [∀ l, (read l).StaysIn t] :
    (beforeBlock read).StaysIn t := by
  unfold beforeBlock
  infer_instance

instance staysIn_initializer (s : Setting) : (initializer rules s).StaysIn t := by
  unfold initializer
  infer_instance

instance staysIn_ifHeader (literals : NameLiterals) : (ifHeader rules literals).StaysIn t := by
  unfold ifHeader
  infer_instance

instance staysIn_elseBranch : (elseBranch rules).StaysIn t := by
  unfold elseBranch
  infer_instance

instance staysIn_ifStatement : (ifStatement rules).StaysIn t := by
  unfold ifStatement
  infer_instance

instance staysIn_rangeClause (literals : NameLiterals) :
    (rangeClause rules literals).StaysIn t := by
  unfold rangeClause
  infer_instance

instance staysIn_forClause (literals : NameLiterals) : (forClause rules literals).StaysIn t := by
  unfold forClause
  infer_instance

instance staysIn_forHeader (literals : NameLiterals) : (forHeader rules literals).StaysIn t := by
  unfold forHeader
  infer_instance

instance staysIn_forStatement : (forStatement rules).StaysIn t := by
  unfold forStatement
  infer_instance

instance staysIn_caseClause (kind : Kind) {head : Reader (List Node)} [head.StaysIn t] :
    (caseClause rules kind head).StaysIn t := by
  unfold caseClause
  infer_instance

instance staysIn_defaultCase : (defaultCase rules).StaysIn t := by
  unfold defaultCase
  infer_instance

instance staysIn_expressionCase : (expressionCase rules).StaysIn t := by
  unfold expressionCase
  infer_instance

instance staysIn_typeCase : (typeCase rules).StaysIn t := by
  unfold typeCase
  infer_instance

instance staysIn_communication : (communication rules).StaysIn t := by
  unfold communication
  refine .andThen fun list => .andThen fun i => ?_
  split <;> infer_instance

instance staysIn_communicationCase : (communicationCase rules).StaysIn t := by
  unfold communicationCase
  infer_instance

instance staysIn_cases {case : Reader Node} [case.StaysIn t] : (cases rules case).StaysIn t := by
  unfold cases
  infer_instance

instance staysIn_typeSwitchHeader (literals : NameLiterals) :
    (typeSwitchHeader rules literals).StaysIn t := by
  unfold typeSwitchHeader
  infer_instance

instance staysIn_switchHeader (literals : NameLiterals) :
    (switchHeader rules literals).StaysIn t := by
  unfold switchHeader
  infer_instance

instance staysIn_switchStatement : (switchStatement rules).StaysIn t := by
  unfold switchStatement
  infer_instance

instance staysIn_selectStatement : (selectStatement rules).StaysIn t := by
  unfold selectStatement
  infer_instance

omit hrules in
instance staysIn_jump (kind : Kind) (word : String) : (jump kind word).StaysIn t := by
  unfold jump
  infer_instance

instance staysIn_returnStatement : (returnStatement rules).StaysIn t := by
  unfold returnStatement
  infer_instance

instance staysIn_statementRule : (statementRule rules).StaysIn t := by
  unfold statementRule
  refine .andThen fun _ => ?_
  split <;> infer_instance

/-! ### Files -/

omit hrules in
instance staysIn_readWith (depth : Nat) (goal : Goal) : (readWith depth goal).StaysIn t := by
  induction depth generalizing goal with
  | zero => exact .fail
  | succ depth ih =>
    cases goal with
    | type lineEnds => exact staysIn_typeRule lineEnds
    | expression s => exact .indivisible
    | binary s level => exact staysIn_binaryRule s level
    | operand s => exact staysIn_operandRule s
    | parameters => exact staysIn_parametersRule
    | arguments => exact staysIn_argumentsRule
    | literalValue => exact staysIn_literalValueRule
    | block => exact staysIn_blockRule
    | statement => exact staysIn_statementRule

instance staysIn_topLevelItem : (topLevelItem rules).StaysIn t := by
  refine ⟨fun i n k hi h => ?_⟩
  simp only [topLevelItem] at h
  split at h
  next hitem =>
    cases h
    refine (?_ : StaysIn t _).stays hi hitem
    infer_instance
  next => cases h

omit hrules in
instance staysIn_itemEnd (n : Node) : (itemEnd n).StaysIn t := by
  unfold itemEnd
  infer_instance

end CodeGraph.Syntax

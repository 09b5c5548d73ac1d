import CodeGraph.Proofs.Syntax.Rules
import CodeGraph.Source.Outline

/-!
# Specifications of constants and variables

What the rules put into the tree where constants and variables are declared.

* `nameLeaves` — the children of a specification in the role of a name, each as its kind and its text.
* `IsConstSpec`, `IsVarSpec` — in a specification of constants the commas between the names are in the role
  of a name as well, in one of variables they are not.
* `WellDeclared` — declarations consist of such specifications; so do all declarations of a text:
  `wellDeclared_ofText`.  Comments between the children of a node change nothing about it.
-/

namespace CodeGraph.Syntax

open Reader

/-- The children in the role of a name, each as its kind and its text. -/
def nameLeaves (t : SourceText) (n : Node) : List (Kind × String) :=
  (n.childrenIn .name).map fun c => (c.kind, t.textOf c)

/-- Whether a text starts as a name does. -/
def OpensName (s : String) : Prop := ∃ c ∈ s.toList.head?, Text.startsIdentifier c

/-- A specification of constants with the given names: names and commas by turns. -/
structure IsConstSpec (t : SourceText) (names : List String) (n : Node) : Prop where
  kind : n.kind = .constSpec
  leaves : nameLeaves t n = (names.map (Kind.identifier, ·)).intersperse (.token, ",")
  opens : ∀ name ∈ names, OpensName name

/-- A specification of variables with the given names: nothing but the names. -/
structure IsVarSpec (t : SourceText) (names : List String) (n : Node) : Prop where
  kind : n.kind = .varSpec
  leaves : nameLeaves t n = names.map (Kind.identifier, ·)
  opens : ∀ name ∈ names, OpensName name

/-- Beside keywords, punctuation and comments all children of a node are of one sort. -/
def ChildrenAre (P : Node → Prop) (n : Node) : Prop :=
  ∀ c ∈ n.children, c.kind = .token ∨ c.kind = .comment ∨ P c

theorem ChildrenAre.kind_ne {P : Node → Prop} {n : Node} {k : Kind} (h : ChildrenAre P n)
    (htoken : k ≠ .token)
    (hcomment : k ≠ .comment) (hP : ∀ c, P c → c.kind ≠ k) : ∀ c ∈ n.children, c.kind ≠ k := by
  intro c hc
  obtain hk | hk | hk := h c hc
  · exact hk ▸ htoken.symm
  · exact hk ▸ hcomment.symm
  · exact hP c hk

/-- A group of specifications of variables. -/
def IsVarGroup (t : SourceText) (n : Node) : Prop :=
  n.kind = .varSpecList ∧ ChildrenAre (fun c => ∃ names, IsVarSpec t names c) n

/-- A declaration of constants or variables consists of their specifications. -/
structure WellDeclared (t : SourceText) (n : Node) : Prop where
  constantSpecs : n.kind = .constDeclaration → ChildrenAre (fun c => ∃ names, IsConstSpec t names c) n
  variableSpecs : n.kind = .varDeclaration →
    ChildrenAre (fun c => (∃ names, IsVarSpec t names c) ∨ IsVarGroup t c) n

/-! ### Specifications -/

section Rules

variable {t : SourceText} {rules : Rules}

theorem nameLeaves_append (kind : Kind) (names : List Node) {others : List Node}
    (h : ∀ c ∈ others, c.field ≠ some .name) :
    nameLeaves t (.branch kind (names ++ others)) = nameLeaves t (.branch kind names) := by
  have hothers : others.filter (·.field == some .name) = [] :=
    List.filter_eq_nil_iff.mpr fun c hc => by simpa using h c hc
  show ((names ++ others).filter _).map _ = (names.filter _).map _
  rw [List.filter_append, hothers, List.append_nil]

theorem nameLeaves_cons (kind : Kind) (c : Node) (cs : List Node) :
    nameLeaves t (.branch kind (c :: cs)) =
      (if c.field = some .name then [(c.kind, t.textOf c)] else []) ++ nameLeaves t (.branch kind cs) := by
  show ((c :: cs).filter _).map _ = _ ++ (cs.filter _).map _
  by_cases hc : c.field = some .name <;> simp [hc]

/-- A name in a list of names. -/
structure IsName (t : SourceText) (n : Node) : Prop where
  kind : n.kind = .identifier
  field : n.field = some .name
  opens : OpensName (t.textOf n)

/-- A comma in a list of names, in some role or in none. -/
structure IsComma (t : SourceText) (field : Option Field) (n : Node) : Prop where
  kind : n.kind = .token
  field : n.field = field
  text : t.textOf n = ","

theorem yields_specName : (Node.inField .name <$> name .identifier []).Yields t (IsName t) :=
  .map ((yields_name .identifier []).mono fun n h => by
    obtain ⟨⟨p, q, rfl⟩, hopens⟩ := h
    exact ⟨rfl, rfl, hopens⟩)

theorem yields_comma : (symbol ",").Yields t (IsComma t none) :=
  (yields_symbol ",").mono fun n h => by
    obtain ⟨⟨p, q, rfl⟩, htext⟩ := h
    exact ⟨rfl, rfl, htext⟩

theorem yields_namedComma :
    Yields t (do guardThat (aheadOn true ","); Node.inField .name <$> symbol ",") (IsComma t (some .name)) :=
  (Yields.guardThat _).bind fun _ _ => .map (yields_comma.mono fun n h => by
    cases n
    exact ⟨h.kind, rfl, h.text⟩)

/-- Where names and commas in the role of a name alternate, so do their texts. -/
theorem nameLeaves_of_namedCommas (kind : Kind) {first : Node} {others : List Node} (hfirst : IsName t first)
    (h : Yields.Alternating (IsComma t (some .name)) (IsName t) others) :
    ∃ names : List String, nameLeaves t (.branch kind (first :: others)) =
      ((t.textOf first :: names).map (Kind.identifier, ·)).intersperse (.token, ",") ∧
        ∀ name ∈ names, OpensName name := by
  induction h generalizing first with
  | nil =>
    refine ⟨[], ?_, nofun⟩
    rw [nameLeaves_cons, if_pos hfirst.field, hfirst.kind]
    rfl
  | cons hcomma hname _ ih =>
    obtain ⟨names, hleaves, hopens⟩ := ih hname
    refine ⟨_ :: names, ?_, List.forall_mem_cons.mpr ⟨hname.opens, hopens⟩⟩
    rw [nameLeaves_cons, if_pos hfirst.field, nameLeaves_cons, if_pos hcomma.field, hleaves, hfirst.kind,
      hcomma.kind, hcomma.text]
    rfl

/-- Where the commas are in no role, nothing but the names is. -/
theorem nameLeaves_of_commas (kind : Kind) {first : Node} {others : List Node} (hfirst : IsName t first)
    (h : Yields.Alternating (IsComma t none) (IsName t) others) :
    ∃ names : List String, nameLeaves t (.branch kind (first :: others)) =
      (t.textOf first :: names).map (Kind.identifier, ·) ∧ ∀ name ∈ names, OpensName name := by
  induction h generalizing first with
  | nil =>
    refine ⟨[], ?_, nofun⟩
    rw [nameLeaves_cons, if_pos hfirst.field, hfirst.kind]
    rfl
  | cons hcomma hname _ ih =>
    obtain ⟨names, hleaves, hopens⟩ := ih hname
    refine ⟨_ :: names, ?_, List.forall_mem_cons.mpr ⟨hname.opens, hopens⟩⟩
    rw [nameLeaves_cons, if_pos hfirst.field, nameLeaves_cons, if_neg (hcomma.field ▸ nofun), hleaves,
      hfirst.kind]
    rfl

variable [hrules : ∀ g, (rules g).StaysIn t]

theorem yields_as (f : Field) {r : Reader Node} [h : r.StaysIn t] :
    (as f r).Yields t fun ns => ∀ c ∈ ns, c.field = some f :=
  (Yields.as f h.stays).mono fun ns hns => by
    obtain ⟨⟨l, cs⟩, -, rfl⟩ := hns
    exact List.forall_mem_singleton.mpr rfl

theorem yields_single_symbol (spelling : String) :
    (single (symbol spelling)).Yields t fun ns => ∀ c ∈ ns, c.field = none :=
  (Yields.single (yields_symbol spelling)).mono fun ns hns => by
    obtain ⟨_, ⟨⟨p, q, rfl⟩, -⟩, rfl⟩ := hns
    exact List.forall_mem_singleton.mpr rfl

include hrules

/-- Nothing among the values is in the role of a name. -/
theorem yields_specValues : (specValues rules).Yields t fun ns => ∀ c ∈ ns, c.field ≠ some .name := by
  refine (Yields.parts_cons (yields_single_symbol "=") (Yields.parts_one (yields_as .value))).mono ?_
  rintro _ ⟨sign, values, hsign, hvalues, rfl⟩
  exact List.forall_mem_append.mpr ⟨fun c hc => hsign c hc ▸ nofun, fun c hc => hvalues c hc ▸ nofun⟩

/-- The values of constants, with the type of the constants or without it. -/
theorem yields_constValues :
    (optionalSeq (specValues rules <|> parts [as .type (rules (.type false)), specValues rules])).Yields t
      fun ns => ∀ c ∈ ns, c.field ≠ some .name := by
  refine .optionalSeq (.orElse yields_specValues
    ((Yields.parts_cons (yields_as .type) (Yields.parts_one yields_specValues)).mono ?_)) nofun
  rintro _ ⟨type, values, htype, hvalues, rfl⟩
  exact List.forall_mem_append.mpr ⟨fun c hc => htype c hc ▸ nofun, hvalues⟩

theorem yields_constSpec : (constSpec rules).Yields t fun n => ∃ names, IsConstSpec t names n := by
  refine .indivisible ((Yields.separated yields_namedComma yields_specName).bind ?_)
  rintro _ ⟨first, others, rfl, hfirst, hothers⟩
  obtain ⟨names, hleaves, hopens⟩ := nameLeaves_of_namedCommas .constSpec hfirst hothers
  have hall : ∀ name ∈ t.textOf first :: names, OpensName name :=
    List.forall_mem_cons.mpr ⟨hfirst.opens, hopens⟩
  refine Yields.peek.bind fun i _ => ?_
  split
  next => exact .pure ⟨_, rfl, hleaves, hall⟩
  next =>
    refine (Yields.build .constSpec (Yields.parts_cons (Yields.pure (P := (· = first :: others)) rfl)
      (Yields.parts_one yields_constValues))).mono ?_
    rintro _ ⟨_, ⟨_, values, rfl, hvalues, rfl⟩, rfl⟩
    exact ⟨_, rfl, (nameLeaves_append .constSpec _ hvalues).trans hleaves, hall⟩

theorem yields_varSpec : (varSpec rules).Yields t fun n => ∃ names, IsVarSpec t names n := by
  refine .indivisible ((Yields.separated yields_comma yields_specName).bind ?_)
  rintro _ ⟨first, others, rfl, hfirst, hothers⟩
  obtain ⟨names, hleaves, hopens⟩ := nameLeaves_of_commas .varSpec hfirst hothers
  -- Whatever follows the names, the specification has just them.
  have hspec (rest : List Node) (hrest : ∀ c ∈ rest, c.field ≠ some .name) :
      ∃ names, IsVarSpec t names (.branch .varSpec (first :: others ++ rest)) :=
    ⟨_, rfl, (nameLeaves_append .varSpec _ hrest).trans hleaves,
      List.forall_mem_cons.mpr ⟨hfirst.opens, hopens⟩⟩
  refine Yields.peek.bind fun i _ => ?_
  split
  next =>
    refine (Yields.build .varSpec (Yields.parts_cons (Yields.pure (P := (· = first :: others)) rfl)
      (Yields.parts_one yields_specValues))).mono ?_
    rintro _ ⟨_, ⟨_, values, rfl, hvalues, rfl⟩, rfl⟩
    exact hspec _ hvalues
  next =>
    refine (hrules (.type true)).stays.bind fun ⟨l, cs⟩ _ => Yields.peek.bind fun j _ => ?_
    have htype : ∀ c ∈ [(Node.node l cs).inField .type], c.field ≠ some .name :=
      List.forall_mem_singleton.mpr nofun
    split
    next =>
      refine (Yields.build .varSpec (Yields.parts_cons (Yields.pure (P := (· = first :: others)) rfl)
        (Yields.parts_cons (Yields.pure (P := (· = [(Node.node l cs).inField .type])) rfl)
          (Yields.parts_one yields_specValues)))).mono ?_
      rintro _ ⟨_, ⟨_, _, rfl, ⟨_, values, rfl, hvalues, rfl⟩, rfl⟩, rfl⟩
      exact hspec _ (List.forall_mem_append.mpr ⟨htype, hvalues⟩)
    next => exact .pure (hspec _ htype)

/-! ### Declarations -/

omit hrules in
theorem yields_group {spec : Reader Node} {P : Node → Prop} (h : spec.Yields t P) :
    (group spec).Yields t fun ns => ∀ c ∈ ns, c.kind = .token ∨ P c := by
  have hround : Yields t (do let n ← spec; terminator; pure n) P :=
    h.bind fun n hn => yields_terminator.bind fun _ _ => .pure hn
  have hbracket (spelling : String) :
      (single (symbol spelling)).Yields t fun ns => ∀ c ∈ ns, c.kind = .token :=
    (Yields.single (yields_symbol spelling)).mono fun ns hns => by
      obtain ⟨_, ⟨⟨p, q, rfl⟩, -⟩, rfl⟩ := hns
      exact List.forall_mem_singleton.mpr rfl
  refine .indivisible ((Yields.parts_cons (hbracket "(")
    (Yields.parts_cons hround.many (Yields.parts_one (hbracket ")")))).mono ?_)
  rintro _ ⟨opening, _, hopening, ⟨specs, closing, hspecs, hclosing, rfl⟩, rfl⟩
  refine List.forall_mem_append.mpr ⟨fun c hc => .inl (hopening c hc), ?_⟩
  exact List.forall_mem_append.mpr ⟨fun c hc => .inr (hspecs c hc), fun c hc => .inl (hclosing c hc)⟩

omit hrules in
/-- A keyword and then nodes of one sort. -/
theorem yields_declaration {r : Reader (List Node)} {P : Node → Prop} (kind : Kind) (word : String)
    (h : r.Yields t fun ns => ∀ c ∈ ns, c.kind = .token ∨ P c) :
    (build kind (parts [single (keyword word), r])).Yields t fun n => n.kind = kind ∧ ChildrenAre P n := by
  refine (Yields.build kind (Yields.parts_cons (Yields.single (yields_keyword word))
    (Yields.parts_one h))).mono ?_
  rintro _ ⟨_, ⟨_, specs, ⟨_, ⟨p, q, rfl⟩, rfl⟩, hspecs, rfl⟩, rfl⟩
  exact ⟨rfl, List.forall_mem_cons.mpr ⟨.inl rfl, fun c hc => (hspecs c hc).imp_right .inr⟩⟩

theorem yields_constDeclaration : (constDeclaration rules).Yields t (WellDeclared t) := by
  refine (yields_declaration .constDeclaration "const" (.orElse (yields_group yields_constSpec)
    ((Yields.single yields_constSpec).mono ?_))).mono fun n h => ⟨fun _ => h.2, fun hk => ?_⟩
  · rintro _ ⟨n, hn, rfl⟩
    exact List.forall_mem_singleton.mpr (.inr hn)
  · cases h.1.symm.trans hk

theorem yields_varDeclaration : (varDeclaration rules).Yields t (WellDeclared t) := by
  have hgroup : (build .varSpecList (group (varSpec rules))).Yields t (IsVarGroup t) :=
    (Yields.build .varSpecList (yields_group yields_varSpec)).mono fun n hn => by
      obtain ⟨ns, hns, rfl⟩ := hn
      exact ⟨rfl, fun c hc => (hns c hc).imp_right .inr⟩
  refine (yields_declaration .varDeclaration "var" (.orElse ((Yields.single hgroup).mono ?_)
    ((Yields.single yields_varSpec).mono ?_))).mono fun n h => ⟨fun hk => ?_, fun _ => h.2⟩
  · rintro _ ⟨n, hn, rfl⟩
    exact List.forall_mem_singleton.mpr (.inr (.inr hn))
  · rintro _ ⟨n, hn, rfl⟩
    exact List.forall_mem_singleton.mpr (.inr (.inl hn))
  · cases h.1.symm.trans hk

/-! ### Items of a file -/

omit hrules in
/-- Of a node that declares neither constants nor variables nothing is asked. -/
theorem wellDeclared_of_kind {n : Node} (hc : n.kind ≠ .constDeclaration) (hv : n.kind ≠ .varDeclaration) :
    WellDeclared t n :=
  ⟨fun hk => absurd hk hc, fun hk => absurd hk hv⟩

omit hrules in
theorem wellDeclared_branch {kind : Kind} (h : kind ∉ [.constDeclaration, .varDeclaration])
    (ns : List Node) : WellDeclared t (.branch kind ns) := by
  simp only [List.mem_cons, List.not_mem_nil, or_false, not_or] at h
  exact wellDeclared_of_kind h.1 h.2

omit hrules in
theorem yields_other {kind : Kind} (h : kind ∉ [.constDeclaration, .varDeclaration])
    {r : Reader (List Node)} [hr : r.StaysIn t] : (build kind r).Yields t (WellDeclared t) :=
  (Yields.build kind hr.stays).mono fun n hn => by
    obtain ⟨ns, -, rfl⟩ := hn
    exact wellDeclared_branch h ns

theorem yields_assigned {kind : Kind} (h : kind ∉ [.constDeclaration, .varDeclaration])
    (left operator : Node) (s : Setting) :
    (assigned rules kind left operator s).Yields t (WellDeclared t) :=
  (staysIn_expressionList s).stays.bind fun _ _ => .pure (wellDeclared_branch h _)

theorem yields_simpleStatement (s right : Setting) :
    (simpleStatement rules s right).Yields t (WellDeclared t) := by
  refine .indivisible ((staysIn_expressionList s).stays.bind fun list _ => Yields.peek.bind fun i _ => ?_)
  split
  next => exact (yields_symbol _).bind fun _ _ => yields_assigned (by decide) _ _ _
  next => exact yields_other (by decide)
  next => exact yields_other (by decide)
  next => exact yields_other (by decide)
  next =>
    split
    next => exact (yields_symbol _).bind fun _ _ => yields_assigned (by decide) _ _ _
    next =>
      split
      next => exact .pure (wellDeclared_branch (by decide) _)
      next => exact .fail
  next => exact .pure (wellDeclared_branch (by decide) _)
  next => exact .fail

theorem yields_labeledStatement : (labeledStatement rules).Yields t (WellDeclared t) := by
  refine (yields_name _ _).bind fun label _ => (Yields.guardThat _).bind fun _ _ =>
    (yields_symbol ":").bind fun colon _ => Yields.peek.bind fun i _ => ?_
  split
  next => exact .pure (wellDeclared_branch (by decide) _)
  next => exact (hrules .statement).stays.bind fun _ _ => .pure (wellDeclared_branch (by decide) _)

/-- A statement, where the rule for blocks reads nothing but blocks. -/
theorem yields_statementRule (hblock : (rules .block).Yields t fun n => n.kind = .block) :
    (statementRule rules).Yields t (WellDeclared t) := by
  refine Yields.peek.bind fun i _ => ?_
  split
  next => exact yields_constDeclaration
  next => exact yields_other (by decide)
  next => exact yields_varDeclaration
  next => exact yields_other (by decide)
  next => exact yields_other (by decide)
  next => exact yields_other (by decide)
  next => exact yields_other (by decide)
  next => exact yields_other (by decide)
  next => exact .orElse (yields_other (by decide)) (yields_other (by decide))
  next => exact yields_other (by decide)
  next => exact yields_other (by decide)
  next => exact yields_other (by decide)
  next => exact yields_other (by decide)
  next => exact yields_other (by decide)
  next =>
    split
    next => exact .orElse yields_labeledStatement (yields_simpleStatement _ _)
    next =>
      split
      next => exact hblock.mono fun n hn => wellDeclared_of_kind (hn ▸ by decide) (hn ▸ by decide)
      next =>
        split
        next => exact yields_other (by decide)
        next => exact yields_simpleStatement _ _

theorem yields_topLevelDeclaration : (topLevelDeclaration rules).Yields t (WellDeclared t) := by
  refine Yields.peek.bind fun i _ => ?_
  split
  next => exact yields_other (by decide)
  next => exact yields_other (by decide)
  next => exact .orElse (yields_other (by decide)) (yields_other (by decide))
  next => exact .fail

omit hrules in
theorem yields_readWith_block (depth : Nat) : (readWith depth .block).Yields t fun n => n.kind = .block := by
  cases depth with
  | zero => exact .fail
  | succ depth =>
    refine (Yields.build .block (StaysIn.stays)).mono fun n hn => ?_
    obtain ⟨ns, -, rfl⟩ := hn
    rfl

omit hrules in
theorem yields_readWith_statement (depth : Nat) : (readWith depth .statement).Yields t (WellDeclared t) := by
  cases depth with
  | zero => exact .fail
  | succ depth => exact yields_statementRule (yields_readWith_block depth)

omit hrules in
theorem yields_topLevelItem (depth : Nat) : (topLevelItem (readWith depth)).Yields t (WellDeclared t) := by
  intro i n k hi h
  simp only [topLevelItem] at h
  split at h
  next hitem =>
    cases h
    refine (Yields.orElse yields_topLevelDeclaration ?_) hi hitem
    exact (Yields.guardThat _).bind fun _ _ => yields_readWith_statement depth
  next => cases h

omit hrules in
theorem yields_itemsUpTo (depth fuel spare : Nat) :
    (itemsUpTo (readWith depth) fuel spare).Yields t fun ns => ∀ n ∈ ns, WellDeclared t n := by
  induction fuel generalizing spare with
  | zero => exact .fail
  | succ fuel ih =>
    refine Yields.peek.bind fun i _ => ?_
    split
    next => exact .pure nofun
    next =>
      refine (yields_topLevelItem depth).bind fun n hn => StaysIn.maybe.stays.bind fun ended _ => ?_
      split
      next => exact .map ((ih _).mono fun ns hns => List.forall_mem_cons.mpr ⟨hn, hns⟩)
      next => exact .fail
      next =>
        refine (ih _).bind fun ns hns => (Yields.guardThat _).bind fun _ _ => .pure ?_
        exact List.forall_mem_cons.mpr ⟨hn, hns⟩

omit hrules in
theorem yields_sourceFile (depth spare : Nat) :
    (sourceFile (readWith depth) spare).Yields t fun root => ∀ n ∈ root.children, WellDeclared t n := by
  intro i root k hi h
  exact (Yields.map (Q := fun root : Node => ∀ n ∈ root.children, WellDeclared t n)
    (yields_itemsUpTo depth _ spare)) hi h

end Rules

/-! ### Comments -/

section Comments

variable {t : SourceText}

/-- A comment is in no role. -/
def IsComment (n : Node) : Prop := n.kind = .comment ∧ n.field = none

theorem isComment_of_mem_commentsIn {fuel : Nat} {p : Place} {stop : Nat} {c : Node}
    (h : c ∈ commentsIn t fuel p stop) : IsComment c := by
  induction fuel generalizing p with
  | zero => cases h
  | succ fuel ih =>
    rw [commentsIn] at h
    split at h
    next => cases h
    next =>
      split at h
      next => cases h
      next =>
        split at h
        next =>
          rcases List.mem_cons.mp h with rfl | h
          · exact ⟨rfl, rfl⟩
          · exact ih h
        next => exact ih h

theorem label_withComments (n : Node) : (n.withComments t).label = n.label := by
  obtain ⟨l, cs⟩ := n
  cases cs <;> rfl

theorem kind_withComments (n : Node) : (n.withComments t).kind = n.kind :=
  congrArg Label.kind (label_withComments n)

theorem textOf_withComments (n : Node) : t.textOf (n.withComments t) = t.textOf n :=
  congrArg (fun l : Label => t.slice l.start.offset l.stop.offset) (label_withComments n)

/-- The children that pass a test on labels stay, in their order, if no comment passes it. -/
theorem filter_weave {p : Node → Bool} (hcomment : ∀ c, IsComment c → p c = false)
    (hp : ∀ c : Node, p (c.withComments t) = p c) (place : Place) (cs : List Node) :
    (weave t place cs).filter p = (cs.filter p).map (Node.withComments t) := by
  induction cs generalizing place with
  | nil => rfl
  | cons c cs ih =>
    have hnone : (commentsIn t (c.start.offset - place.offset) place c.start.offset).filter p = [] :=
      List.filter_eq_nil_iff.mpr fun d hd => by
        rw [hcomment d (isComment_of_mem_commentsIn hd)]
        exact Bool.false_ne_true
    rw [weave, List.filter_append, hnone, List.nil_append, List.filter_cons, List.filter_cons, hp, ih]
    split <;> rfl

theorem filter_children_withComments {p : Node → Bool} (hcomment : ∀ c, IsComment c → p c = false)
    (hp : ∀ c : Node, p (c.withComments t) = p c) (n : Node) :
    (n.withComments t).children.filter p = (n.children.filter p).map (Node.withComments t) := by
  obtain ⟨l, cs⟩ := n
  cases cs with
  | nil => rfl
  | cons c cs =>
    show (c.withComments t :: weave t c.stop cs).filter p = ((c :: cs).filter p).map _
    rw [List.filter_cons, List.filter_cons, hp, filter_weave hcomment hp]
    split <;> rfl

theorem mem_weave {place : Place} {cs : List Node} {c : Node} (h : c ∈ weave t place cs) :
    IsComment c ∨ ∃ d ∈ cs, c = d.withComments t := by
  induction cs generalizing place with
  | nil => cases h
  | cons d cs ih =>
    rw [weave, List.mem_append, List.mem_cons] at h
    obtain h | rfl | h := h
    · exact .inl (isComment_of_mem_commentsIn h)
    · exact .inr ⟨d, List.mem_cons_self, rfl⟩
    · exact (ih h).imp_right fun ⟨e, he, hc⟩ => ⟨e, List.mem_cons_of_mem d he, hc⟩

theorem mem_children_withComments {n c : Node} (h : c ∈ (n.withComments t).children) :
    IsComment c ∨ ∃ d ∈ n.children, c = d.withComments t := by
  obtain ⟨l, cs⟩ := n
  cases cs with
  | nil => cases h
  | cons d cs =>
    rcases List.mem_cons.mp h with rfl | h
    · exact .inr ⟨d, List.mem_cons_self, rfl⟩
    · exact (mem_weave h).imp_right fun ⟨e, he, hc⟩ => ⟨e, List.mem_cons_of_mem d he, hc⟩

theorem nameLeaves_withComments (n : Node) : nameLeaves t (n.withComments t) = nameLeaves t n := by
  have hfield (c : Node) : ((c.withComments t).field == some .name) = (c.field == some .name) :=
    congrArg (fun l : Label => l.field == some .name) (label_withComments c)
  rw [nameLeaves, Node.childrenIn, filter_children_withComments (fun c hc => by rw [hc.2]; rfl) hfield,
    List.map_map]
  refine List.map_congr_left fun c _ => ?_
  rw [Function.comp_apply, kind_withComments, textOf_withComments]

theorem ChildrenAre.withComments {P : Node → Prop} (hP : ∀ c, P c → P (c.withComments t)) {n : Node}
    (h : ChildrenAre P n) : ChildrenAre P (n.withComments t) := by
  intro c hc
  obtain hcomment | ⟨d, hd, rfl⟩ := mem_children_withComments hc
  · exact .inr (.inl hcomment.1)
  · rw [kind_withComments]
    exact (h d hd).imp_right (Or.imp_right (hP d))

theorem IsConstSpec.withComments {names : List String} {n : Node} (h : IsConstSpec t names n) :
    IsConstSpec t names (n.withComments t) :=
  ⟨(kind_withComments n).trans h.kind, (nameLeaves_withComments n).trans h.leaves, h.opens⟩

theorem IsVarSpec.withComments {names : List String} {n : Node} (h : IsVarSpec t names n) :
    IsVarSpec t names (n.withComments t) :=
  ⟨(kind_withComments n).trans h.kind, (nameLeaves_withComments n).trans h.leaves, h.opens⟩

theorem IsVarGroup.withComments {n : Node} (h : IsVarGroup t n) : IsVarGroup t (n.withComments t) :=
  ⟨(kind_withComments n).trans h.1, h.2.withComments fun _ ⟨names, hc⟩ => ⟨names, hc.withComments⟩⟩

theorem WellDeclared.withComments {n : Node} (h : WellDeclared t n) : WellDeclared t (n.withComments t) where
  constantSpecs hk := (h.constantSpecs ((kind_withComments n).symm.trans hk)).withComments
    fun _ ⟨names, hc⟩ => ⟨names, hc.withComments⟩
  variableSpecs hk := (h.variableSpecs ((kind_withComments n).symm.trans hk)).withComments fun _ hc =>
    hc.imp (fun ⟨names, hc⟩ => ⟨names, hc.withComments⟩) fun hc => hc.withComments

theorem IsComment.wellDeclared {n : Node} (h : IsComment n) : WellDeclared t n :=
  wellDeclared_of_kind (h.1 ▸ by decide) (h.1 ▸ by decide)

theorem mem_children_withOuterComments {root c : Node} (h : c ∈ (root.withOuterComments t).children) :
    IsComment c ∨ c ∈ root.children := by
  simp only [Node.withOuterComments, Node.children, List.mem_append] at h
  obtain (h | h) | h := h
  · split at h
    next => exact .inl (isComment_of_mem_commentsIn h)
    next => cases h
  · exact .inr h
  · exact .inl (isComment_of_mem_commentsIn h)

end Comments

/-! ### Trees of texts -/

/-- In the tree of a text every declaration of constants or variables consists of their specifications. -/
theorem wellDeclared_ofText (s : String) :
    ∀ n ∈ (Node.ofText s).children, WellDeclared (SourceText.ofString s) n := by
  have hfault (p : Place) : ∀ n ∈ (Node.ofFault p).children, WellDeclared (SourceText.ofString s) n :=
    List.forall_mem_singleton.mpr (wellDeclared_of_kind nofun nofun)
  have hmark : (if (Input.ofString s).rest.head? = some '\uFEFF' then (Input.ofString s).drop 1
      else Input.ofString s).Reads (SourceText.ofString s) := by
    split
    next => exact ((Input.reads_ofString s).drop 1).1
    next => exact Input.reads_ofString s
  intro n hn
  rw [Node.ofText] at hn
  dsimp only at hn
  split at hn
  next root k hroot =>
    obtain hcomment | hn := mem_children_withOuterComments hn
    · exact hcomment.wellDeclared
    · obtain hcomment | ⟨d, hd, rfl⟩ := mem_children_withComments hn
      · exact hcomment.wellDeclared
      · exact ((yields_sourceFile _ 0 (hmark.drop _).1.settle hroot).2 d hd).withComments
  next =>
    split at hn
    next => exact hfault _ n hn
    next => exact hfault _ n hn

end CodeGraph.Syntax

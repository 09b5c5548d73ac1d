import CodeGraph.Syntax.Goal

/-!
# What readers yield

* `Input.Reads` — an input stands somewhere in a text: what it still has to read is what follows there.
* `Reader.Yields` — started in a text a reader stays in it, and what it reads has a property.  The
  combinators keep this (`Yields.bind`, `Yields.orElse`, `Yields.many`, …), so what a rule yields follows
  from what its parts yield.
* `Reader.yields_symbol`, `Reader.yields_name` — the text of a token is the spelling that was looked for.
-/

namespace CodeGraph.Syntax

/-- The input stands at a place of a text and has what follows there still to read. -/
def Input.Reads (t : SourceText) (i : Input) : Prop := i.rest = t.chars.toList.drop i.place.offset

namespace Input

variable {t : SourceText} {i : Input}

theorem reads_ofString (s : String) : (ofString s).Reads (SourceText.ofString s) := by
  show s.toList = List.drop 0 (s.toList.toArray).toList
  rw [List.drop_zero]

theorem Reads.drop (n : Nat) (h : i.Reads t) :
    (i.drop n).Reads t ∧ (i.drop n).rest = i.rest.drop n ∧
      (i.drop n).place.offset = i.place.offset + min n i.rest.length := by
  induction n generalizing i with
  | zero => exact ⟨h, by simp [Input.drop], by simp [Input.drop]⟩
  | succ n ih =>
    obtain ⟨rest, place, settled, begun, reach⟩ := i
    cases rest with
    | nil => exact ⟨h, rfl, by simp [Input.drop]⟩
    | cons c cs =>
      have hnext : (Input.mk cs (place.after c) settled begun reach).Reads t := by
        have htail := congrArg List.tail h
        rwa [List.tail_drop] at htail
      obtain ⟨hreads, hrest, hoffset⟩ := ih hnext
      refine ⟨hreads, hrest, hoffset.trans ?_⟩
      simp only [Place.after, List.length_cons]
      omega

theorem Reads.skip (stopAtLineEnd : Bool) (h : i.Reads t) : (i.skip stopAtLineEnd).Reads t :=
  (h.drop _).1

theorem Reads.settle (h : i.Reads t) : i.settle.Reads t := h

end Input

namespace Reader

variable {t : SourceText} {α β : Type} {P : α → Prop} {Q : β → Prop} {r s : Reader α}
  {f : α → Reader β}

/-- Started in a text, a reader stays in it, and what it reads has a property. -/
def Yields (t : SourceText) (r : Reader α) (P : α → Prop) : Prop :=
  ∀ ⦃i a j⦄, i.Reads t → r i = .done a j → j.Reads t ∧ P a

theorem bind_apply (r : Reader α) (f : α → Reader β) (i : Input) : (r >>= f) i =
    match r i with
    | .done a j => f a j
    | .stuck p => .stuck p := rfl

theorem orElse_apply (r s : Reader α) (i : Input) : (r <|> s) i =
    match r i with
    | .done a j => .done a j
    | .stuck p => s { i with reach := i.reach.later p } := rfl

theorem manyUpTo_succ (r : Reader α) (fuel : Nat) (i : Input) : manyUpTo r (fuel + 1) i =
    match r i with
    | .stuck p => .done [] { i with reach := i.reach.later p }
    | .done a j =>
      if j.place.offset ≤ i.place.offset then .done [] i
      else
        match manyUpTo r fuel j with
        | .done as k => .done (a :: as) k
        | .stuck p => .stuck p := rfl

namespace Yields

theorem mono {P' : α → Prop} (h : r.Yields t P) (hP : ∀ a, P a → P' a) : r.Yields t P' :=
  fun _ _ _ hi hr => (h hi hr).imp_right (hP _)

theorem pure {a : α} (h : P a) : Yields t (Pure.pure a : Reader α) P := by
  rintro i _ _ hi ⟨⟩
  exact ⟨hi, h⟩

theorem bind (hr : r.Yields t P) (hf : ∀ a, P a → (f a).Yields t Q) : (r >>= f).Yields t Q := by
  intro i b k hi h
  rw [bind_apply] at h
  split at h
  next a j hj =>
    obtain ⟨hj, ha⟩ := hr hi hj
    exact hf a ha hj h
  next => cases h

theorem map {g : α → β} (h : r.Yields t fun a => Q (g a)) : (g <$> r).Yields t Q :=
  h.bind fun _ ha => .pure ha

theorem fail : (fail : Reader α).Yields t P := fun _ _ _ _ h => nomatch h

theorem orElse (hr : r.Yields t P) (hs : s.Yields t P) : (r <|> s).Yields t P := by
  intro i a j hi h
  rw [orElse_apply] at h
  split at h
  next hdone =>
    cases h
    exact hr hi hdone
  next p _ => exact hs (show Input.Reads t { i with reach := i.reach.later p } from hi) h

theorem maybe (h : r.Yields t P) : (maybe r).Yields t fun o => ∀ a ∈ o, P a :=
  .orElse (.map (h.mono fun _ ha _ hb => Option.some.inj hb ▸ ha)) (.pure fun _ ha => nomatch ha)

theorem peek : Yields t peek fun i => i.Reads t := by
  rintro i _ _ hi ⟨⟩
  exact ⟨hi, hi⟩

theorem guardThat (p : Input → Bool) : (guardThat p).Yields t fun _ => True := by
  intro i a j hi h
  rw [Reader.guardThat] at h
  split at h
  next =>
    cases h
    exact ⟨hi, trivial⟩
  next => cases h

theorem indivisible (h : r.Yields t P) : (indivisible r).Yields t P := by
  intro i a j hi hr
  rw [Reader.indivisible] at hr
  split at hr
  next hdone =>
    cases hr
    obtain ⟨hj, ha⟩ := h hi hdone
    exact ⟨hj, ha⟩
  next => cases hr

theorem manyUpTo (h : r.Yields t P) (fuel : Nat) : (manyUpTo r fuel).Yields t fun as => ∀ a ∈ as, P a := by
  induction fuel with
  | zero => exact .pure fun _ ha => nomatch ha
  | succ fuel ih =>
    intro i as j hi hr
    rw [manyUpTo_succ] at hr
    split at hr
    next =>
      cases hr
      exact ⟨hi, fun _ ha => nomatch ha⟩
    next a k hk =>
      obtain ⟨hk, ha⟩ := h hi hk
      split at hr
      next =>
        cases hr
        exact ⟨hi, fun _ ha => nomatch ha⟩
      next =>
        split at hr
        next hrest =>
          cases hr
          obtain ⟨hj, has⟩ := ih hk hrest
          exact ⟨hj, List.forall_mem_cons.mpr ⟨ha, has⟩⟩
        next => cases hr

theorem many (h : r.Yields t P) : (many r).Yields t fun as => ∀ a ∈ as, P a :=
  fun _ _ _ hi hr => h.manyUpTo _ hi hr

end Yields

/-! ### Tokens -/

/-- The text of a token is what its length was measured on. -/
theorem yields_lexeme (kind : Kind) (length : List Char → Nat) :
    (lexeme kind length).Yields t fun n => (∃ p q, n = .leaf kind p q) ∧
      ∃ cs, length cs ≠ 0 ∧ (t.textOf n).toList = cs.take (length cs) := by
  intro i n k hi h
  simp only [lexeme] at h
  split at h
  next => cases h
  next m hm =>
    cases h
    have hj := hi.skip false
    obtain ⟨hk, -, hoffset⟩ := hj.drop (m + 1)
    refine ⟨hk, ⟨_, _, rfl⟩, (i.skip false).rest, by rw [hm]; exact Nat.succ_ne_zero m, ?_⟩
    show (t.slice (i.skip false).place.offset ((i.skip false).drop (m + 1)).place.offset).toList = _
    rw [SourceText.slice, String.toList_ofList, Array.toList_extract, List.extract_eq_take_drop, hoffset,
      Nat.add_sub_cancel_left, hm, ← hj, ← List.take_eq_take_min]

theorem yields_symbol (s : String) : (symbol s).Yields t fun n =>
    (∃ p q, n = .leaf .token p q) ∧ t.textOf n = s := by
  refine (yields_lexeme .token _).mono fun n h => ⟨h.1, ?_⟩
  obtain ⟨-, cs, hlength, htext⟩ := h
  split at hlength
  next hopens =>
    rw [if_pos hopens] at htext
    refine String.toList_inj.mp (htext.trans ?_)
    exact (List.prefix_iff_eq_take.mp (List.isPrefixOf_iff_prefix.mp hopens)).symm
  next => exact absurd rfl hlength

/-- A name starts with a character that names start with. -/
theorem yields_name (kind : Kind) (keywords : List String) : (name kind keywords).Yields t fun n =>
    (∃ p q, n = .leaf kind p q) ∧ ∃ c ∈ (t.textOf n).toList.head?, Text.startsIdentifier c := by
  refine (yields_lexeme kind _).mono fun n h => ⟨h.1, ?_⟩
  obtain ⟨-, cs, hlength, htext⟩ := h
  dsimp only at hlength htext
  split at hlength
  next => exact absurd rfl hlength
  next hfree =>
    rw [if_neg hfree] at htext
    cases cs with
    | nil => exact absurd rfl hlength
    | cons c cs =>
      simp only [Lexeme.identifierLength] at hlength htext
      split at hlength
      next hc =>
        rw [if_pos hc, List.take_succ_cons] at htext
        exact ⟨c, by rw [htext]; rfl, hc⟩
      next => exact absurd rfl hlength

/-- A keyword, and the end of a statement: something is read, whatever it is. -/
theorem yields_keyword (s : String) : (keyword s).Yields t fun n => ∃ p q, n = .leaf .token p q :=
  (yields_lexeme .token _).mono fun _ h => h.1

theorem yields_terminator : terminator.Yields t fun _ => True := by
  intro i a j hi h
  have hskip := hi.skip true
  simp only [terminator] at h
  split at h
  next =>
    cases h
    exact ⟨hskip, trivial⟩
  next =>
    split at h
    next =>
      cases h
      exact ⟨(hskip.drop 1).1, trivial⟩
    next => cases h

/-! ### Sequences -/

namespace Yields

variable {separator element : Reader Node} {S E : Node → Prop} {R : List Node → Prop}

/-- Elements and separators alternate. -/
inductive Alternating (S E : Node → Prop) : List Node → Prop
  | nil : Alternating S E []
  | cons {s e : Node} {ns : List Node} : S s → E e → Alternating S E ns → Alternating S E (s :: e :: ns)

theorem moreSeparated (hs : separator.Yields t S) (he : element.Yields t E) :
    (moreSeparated separator element).Yields t (Alternating S E) := by
  have hround : Yields t (do let s ← separator; let e ← element; Pure.pure [s, e])
      fun ns => ∃ s e, S s ∧ E e ∧ ns = [s, e] :=
    hs.bind fun s hs => he.bind fun e he => .pure ⟨s, e, hs, he, rfl⟩
  refine hround.many.bind fun rounds hrounds => .pure ?_
  induction rounds with
  | nil => exact .nil
  | cons round rounds ih =>
    obtain ⟨⟨s, e, hs, he, rfl⟩, hothers⟩ := List.forall_mem_cons.mp hrounds
    exact .cons hs he (ih hothers)

theorem separated (hs : separator.Yields t S) (he : element.Yields t E) :
    (separated separator element).Yields t fun ns =>
      ∃ first others, ns = first :: others ∧ E first ∧ Alternating S E others :=
  he.bind fun first hfirst => (hs.moreSeparated he).bind fun others hothers =>
    .pure ⟨first, others, rfl, hfirst, hothers⟩

theorem optionally {r : Reader Node} (h : r.Yields t E) :
    (optionally r).Yields t fun ns => ∀ n ∈ ns, E n := by
  refine h.maybe.bind fun o ho => ?_
  cases o with
  | none => exact .pure fun _ hn => nomatch hn
  | some n => exact .pure (List.forall_mem_singleton.mpr (ho n rfl))

theorem optionalSeq {r : Reader (List Node)} (h : r.Yields t R) (hnil : R []) :
    (optionalSeq r).Yields t R := by
  refine h.maybe.bind fun o ho => ?_
  cases o with
  | none => exact .pure hnil
  | some ns => exact .pure (ho ns rfl)

theorem build {r : Reader (List Node)} (kind : Kind) (h : r.Yields t R) :
    (build kind r).Yields t fun n => ∃ ns, R ns ∧ n = .branch kind ns :=
  h.bind fun ns hns => .pure ⟨ns, hns, rfl⟩

theorem single {r : Reader Node} (h : r.Yields t E) :
    (single r).Yields t fun ns => ∃ n, E n ∧ ns = [n] :=
  h.bind fun n hn => .pure ⟨n, hn, rfl⟩

theorem as {r : Reader Node} (f : Field) (h : r.Yields t E) :
    (as f r).Yields t fun ns => ∃ n, E n ∧ ns = [n.inField f] :=
  h.bind fun n hn => .pure ⟨n, hn, rfl⟩

theorem parts_nil (h : R []) : (parts []).Yields t R := .pure h

theorem parts_cons {r : Reader (List Node)} {rs : List (Reader (List Node))} {F T : List Node → Prop}
    (hr : r.Yields t F) (hrs : (parts rs).Yields t T) :
    (parts (r :: rs)).Yields t fun ns => ∃ first rest, F first ∧ T rest ∧ ns = first ++ rest :=
  hr.bind fun first hfirst => hrs.bind fun rest hrest => .pure ⟨first, rest, hfirst, hrest, rfl⟩

theorem parts_one {r : Reader (List Node)} (hr : r.Yields t R) : (parts [r]).Yields t R :=
  (hr.parts_cons (parts_nil (R := (· = [])) rfl)).mono fun ns hns => by
    obtain ⟨first, _, hfirst, rfl, rfl⟩ := hns
    rwa [List.append_nil]

end Yields

/-! ### Staying in the text -/

/-- Started in a text, a reader stays in it.  What is made of combinators does so if its parts do. -/
class StaysIn (t : SourceText) (r : Reader α) : Prop where
  stays : r.Yields t fun _ => True

theorem Yields.staysIn (h : r.Yields t P) : r.StaysIn t := ⟨h.mono fun _ _ => trivial⟩

namespace StaysIn

variable {element : Reader Node} {elements : Reader (List Node)} {rs : List (Reader (List Node))}

/-- Both steps stay in the text, the second one whatever the first one reads. -/
theorem andThen [hr : r.StaysIn t] (hf : ∀ a, (f a).StaysIn t) : (r >>= f).StaysIn t :=
  (hr.stays.bind fun a _ => (hf a).stays).staysIn

instance pure (a : α) : StaysIn t (Pure.pure a : Reader α) := ⟨Yields.pure trivial⟩

instance bind [r.StaysIn t] [hf : ∀ a, (f a).StaysIn t] : (r >>= f).StaysIn t := andThen hf

instance map (g : α → β) [hr : r.StaysIn t] : (g <$> r).StaysIn t := ⟨Yields.map hr.stays⟩

instance fail : (fail : Reader α).StaysIn t := ⟨Yields.fail⟩

theorem otherwise [hr : r.StaysIn t] (hs : s.StaysIn t) : (r <|> s).StaysIn t :=
  (Yields.orElse hr.stays hs.stays).staysIn

instance orElse [r.StaysIn t] [hs : s.StaysIn t] : (r <|> s).StaysIn t := otherwise hs

instance ite {c : Prop} [Decidable c] [hr : r.StaysIn t] [hs : s.StaysIn t] :
    (if c then r else s).StaysIn t := by
  split <;> assumption

instance maybe [hr : r.StaysIn t] : (maybe r).StaysIn t := hr.stays.maybe.staysIn

instance peek : peek.StaysIn t := Yields.peek.staysIn

instance guardThat (p : Input → Bool) : (guardThat p).StaysIn t := (Yields.guardThat p).staysIn

instance indivisible [hr : r.StaysIn t] : (indivisible r).StaysIn t := hr.stays.indivisible.staysIn

instance many [hr : r.StaysIn t] : (many r).StaysIn t := hr.stays.many.staysIn

instance lexeme (kind : Kind) (length : List Char → Nat) : (lexeme kind length).StaysIn t :=
  (yields_lexeme kind length).staysIn

instance symbol (spelling : String) : (symbol spelling).StaysIn t := (yields_symbol spelling).staysIn

instance keyword (word : String) : (keyword word).StaysIn t := (yields_keyword word).staysIn

instance name (kind : Kind) (keywords : List String) : (name kind keywords).StaysIn t :=
  (yields_name kind keywords).staysIn

instance terminator : terminator.StaysIn t := yields_terminator.staysIn

instance moreSeparated {separator : Reader Node} [hs : separator.StaysIn t] [he : element.StaysIn t] :
    (moreSeparated separator element).StaysIn t :=
  (Yields.moreSeparated hs.stays he.stays).staysIn

instance separated {separator : Reader Node} [hs : separator.StaysIn t] [he : element.StaysIn t] :
    (separated separator element).StaysIn t :=
  (Yields.separated hs.stays he.stays).staysIn

instance optionally [h : element.StaysIn t] : (optionally element).StaysIn t :=
  (Yields.optionally h.stays).staysIn

instance optionalSeq [h : elements.StaysIn t] : (optionalSeq elements).StaysIn t :=
  ⟨Yields.optionalSeq h.stays trivial⟩

instance build (kind : Kind) [h : elements.StaysIn t] : (build kind elements).StaysIn t :=
  (Yields.build kind h.stays).staysIn

instance single [h : element.StaysIn t] : (single element).StaysIn t := (Yields.single h.stays).staysIn

instance as (role : Field) [h : element.StaysIn t] : (as role element).StaysIn t :=
  (Yields.as role h.stays).staysIn

instance parts_nil : (parts []).StaysIn t := ⟨Yields.parts_nil trivial⟩

instance parts_cons [h : elements.StaysIn t] [hs : (parts rs).StaysIn t] :
    (parts (elements :: rs)).StaysIn t :=
  (Yields.parts_cons h.stays hs.stays).staysIn

instance terminated [element.StaysIn t] : (terminated element).StaysIn t := by
  unfold Reader.terminated
  infer_instance

instance bracketed (opening closing : String) [elements.StaysIn t] :
    (bracketed opening closing elements).StaysIn t := by
  unfold Reader.bracketed
  infer_instance

end StaysIn

end Reader

end CodeGraph.Syntax

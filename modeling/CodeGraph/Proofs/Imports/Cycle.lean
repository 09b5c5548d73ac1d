import CodeGraph.Imports.Cycle
import CodeGraph.Proofs.Lists
import CodeGraph.Proofs.Names.Order
import Mathlib.Data.List.Rotate
import Mathlib.Data.String.Basic

/-!
# Closed paths and their rotations

* `Cycle.edges_rotate` — a rotation of a closed path goes along the same edges.
* `Cycle.LeastFirst` — no package of a list comes before its first one; `Cycle.eq_of_isRotated` says
  that at most one rotation is like that, and `Cycle.leastFirst_canonical` that the canonical form is.
* `precedes_list`, `textsLessOrEqual_eq_isLE` — lists are ordered member by member.
-/

namespace CodeGraph

/-! ### The order of texts -/

theorem precedes_text {a b : String} : Precedes a b ↔ a < b := compare_lt_iff_lt

/-- Lists are ordered member by member. -/
theorem precedes_list {κ : Type} [Ord κ] [LT κ] [Std.LawfulEqOrd κ] (h : ∀ a b : κ, Precedes a b ↔ a < b)
    {as bs : List κ} : Precedes as bs ↔ as < bs := by
  rw [Precedes]
  induction as generalizing bs with
  | nil =>
    cases bs with
    | nil => exact ⟨fun h => Ordering.noConfusion h, fun h => nomatch h⟩
    | cons b bs => exact ⟨fun _ => List.Lex.nil, fun _ => rfl⟩
  | cons a as ih =>
    cases bs with
    | nil => exact ⟨fun h => Ordering.noConfusion h, fun h => nomatch h⟩
    | cons b bs =>
      rw [List.compare_cons_cons, Ordering.then_eq_lt, List.cons_lt_cons_iff, ih, ← h a b, Precedes,
        Std.LawfulEqOrd.compare_eq_iff_eq]

theorem precedes_texts {as bs : List String} : Precedes as bs ↔ as < bs :=
  precedes_list fun _ _ => precedes_text

theorem textsLessOrEqual_eq_isLE (as bs : List String) :
    textsLessOrEqual as bs = (compare as bs).isLE := by
  induction as generalizing bs with
  | nil => cases bs <;> rfl
  | cons a as ih =>
    cases bs with
    | nil => rfl
    | cons b bs =>
      rw [textsLessOrEqual, List.compare_cons_cons, ih]
      split
      next heq => rw [heq, Std.ReflOrd.compare_self, Ordering.eq_then]
      next hne =>
        rcases lt_or_gt_of_ne hne with hlt | hgt
        · rw [compare_lt_iff_lt.mpr hlt, Ordering.lt_then, decide_eq_true hlt]
          rfl
        · rw [compare_gt_iff_gt.mpr hgt, Ordering.gt_then, decide_eq_false (lt_asymm hgt)]
          rfl

namespace Cycle

/-! ### Edges -/

theorem edges_eq_zip (ps : List String) : edges ⟨ps⟩ = ps.zip (ps.rotate 1) := by
  cases ps with
  | nil => rfl
  | cons p ps =>
    rw [List.rotate_cons_succ, List.rotate_zero]
    rfl

theorem mem_of_mem_edges {c : Cycle} {p q : String} (h : (p, q) ∈ c.edges) :
    p ∈ c.packages ∧ q ∈ c.packages := by
  rw [edges_eq_zip c.packages] at h
  exact ⟨(List.of_mem_zip h).1, List.mem_rotate.mp (List.of_mem_zip h).2⟩

/-- A closed path goes on from each of its packages. -/
theorem exists_mem_edges {c : Cycle} {p : String} (h : p ∈ c.packages) : ∃ q, (p, q) ∈ c.edges := by
  have hsources : c.edges.map Prod.fst = c.packages := by
    rw [edges_eq_zip c.packages, List.map_fst_zip (List.length_rotate c.packages 1).ge]
  rw [← hsources] at h
  obtain ⟨⟨_, q⟩, he, rfl⟩ := List.mem_map.mp h
  exact ⟨q, he⟩

/-- A rotation of a closed path goes along the same edges. -/
theorem edges_rotate (ps : List String) (n : Nat) : edges ⟨ps.rotate n⟩ = (edges ⟨ps⟩).rotate n := by
  rw [edges_eq_zip, edges_eq_zip, List.zip_eq_zipWith, List.zip_eq_zipWith,
    List.zipWith_rotate_distrib _ _ _ _ (List.length_rotate ps 1).symm, List.rotate_rotate,
    List.rotate_rotate, Nat.add_comm]

theorem mem_edges_of_isRotated {ps qs : List String} (h : ps.IsRotated qs) {e : String × String} :
    e ∈ edges ⟨ps⟩ ↔ e ∈ edges ⟨qs⟩ := by
  obtain ⟨n, rfl⟩ := h
  rw [edges_rotate, List.mem_rotate]

/-! ### The canonical rotation -/

/-- No package comes before the first one. -/
def LeastFirst (ps : List String) : Prop := ∀ first ∈ ps.head?, ∀ p ∈ ps, first ≤ p

/-- At most one rotation of distinct packages starts with the least of them. -/
theorem eq_of_isRotated {ps qs : List String} (hnodup : ps.Nodup) (hps : LeastFirst ps)
    (hqs : LeastFirst qs) (h : ps.IsRotated qs) : ps = qs := by
  obtain ⟨n, rfl⟩ := h
  cases ps with
  | nil => rw [List.rotate_nil]
  | cons p rest =>
    have hlt : n % (p :: rest).length < (p :: rest).length := Nat.mod_lt _ (Nat.succ_pos _)
    have hhead : ((p :: rest).rotate n).head? = some ((p :: rest)[n % (p :: rest).length]) := by
      rw [← List.rotate_mod, List.head?_rotate hlt, List.getElem?_eq_getElem hlt]
    have hle : p ≤ (p :: rest)[n % (p :: rest).length] := hps p rfl _ (List.getElem_mem hlt)
    have hge : (p :: rest)[n % (p :: rest).length] ≤ p :=
      hqs _ hhead p (List.mem_rotate.mpr List.mem_cons_self)
    -- both start with the same package, which is listed once
    have hsame : (p :: rest)[0] = (p :: rest)[n % (p :: rest).length] := le_antisymm hle hge
    have hzero : 0 = n % (p :: rest).length := hnodup.getElem_inj_iff.mp hsame
    exact (hnodup.rotate_eq_self_iff.mpr (Or.inl hzero.symm)).symm

theorem least?_eq_min? (ps : List String) : least? ps = ps.min? := by
  have hmin : (fun m q : String => if q < m then q else m) = min := by
    funext m q
    rw [min_def]
    split
    next hlt => rw [if_neg (not_le.mpr hlt)]
    next hle => rw [if_pos (not_lt.mp hle)]
  cases ps with
  | nil => rfl
  | cons p ps => rw [least?, hmin, List.min?_cons']

/-- The canonical form of a closed path, cut where its least package stands. -/
theorem canonical_append {before after : List String} {m : String}
    (hleast : least? (before ++ m :: after) = some m) (hm : m ∉ before) :
    canonical (before ++ m :: after) = ⟨m :: after ++ before⟩ := by
  rw [canonical, hleast]
  dsimp only
  rw [dropWhile_ne_append_cons hm, takeWhile_ne_append_cons hm]

theorem canonical_spec (ps : List String) :
    (canonical ps).packages.IsRotated ps ∧ LeastFirst (canonical ps).packages := by
  cases hleast : least? ps with
  | none =>
    have hnil : ps = [] := by
      cases ps with
      | nil => rfl
      | cons p ps => cases hleast
    rw [hnil]
    exact ⟨List.IsRotated.refl _, fun first hfirst => nomatch hfirst⟩
  | some m =>
    obtain ⟨hmem, hle⟩ := List.min?_eq_some_iff.mp (least?_eq_min? ps ▸ hleast)
    obtain ⟨before, after, rfl, hm⟩ := List.eq_append_cons_of_mem hmem
    rw [canonical_append hleast hm]
    refine ⟨List.isRotated_append, fun first hfirst p hp => ?_⟩
    rw [← Option.mem_some_iff.mp hfirst]
    refine hle p ?_
    rcases List.mem_append.mp hp with hp | hp
    · exact List.mem_append_right _ hp
    · exact List.mem_append_left _ hp

theorem canonical_isRotated (ps : List String) : (canonical ps).packages.IsRotated ps :=
  (canonical_spec ps).1

theorem leastFirst_canonical (ps : List String) : LeastFirst (canonical ps).packages :=
  (canonical_spec ps).2

theorem mem_canonical {ps : List String} {p : String} : p ∈ (canonical ps).packages ↔ p ∈ ps :=
  (canonical_isRotated ps).mem_iff

theorem mem_edges_canonical {ps : List String} {e : String × String} :
    e ∈ (canonical ps).edges ↔ e ∈ edges ⟨ps⟩ :=
  mem_edges_of_isRotated (canonical_isRotated ps)

end Cycle

end CodeGraph

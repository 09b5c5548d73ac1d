import CodeGraph.Calls.Edge
import Mathlib.Data.List.Nodup
import Mathlib.Data.List.Sort

/-!
# Lists in the order of a key

* `Precedes` — one key comes before another.
* `pairwise_firstOfEach` — in a list sorted by keys, the first members of each key have ascending
  keys; `exists_mem_firstOfEach` says that every key is still there, and `find?_of_mem_firstOfEach`
  that sorting first by keys keeps the first member of each key.
* `mem_firstOfEach_sortedBy`, `firstOfEach_sortedBy_congr` — a member is kept if it is the first one
  with its key, and nothing else counts.
* `mem_sortedDistinct`, `pairwise_sortedDistinct` — each member once, in ascending order;
  `sortedDistinct_eq_self` says that nothing changes where that is so already, and
  `sortedDistinct_congr` that the order of the list does not matter.
* The orders of `TypeId`, `FunctionId`, `CallTarget` and `CallKey` are total and tell apart whatever
  is not equal.
-/

namespace CodeGraph

variable {α κ : Type}

/-- One key comes before another. -/
def Precedes [Ord κ] (a b : κ) : Prop := compare a b = .lt

instance [Ord κ] (a b : κ) : Decidable (Precedes a b) :=
  inferInstanceAs (Decidable (compare a b = .lt))

/-! ### The first of each key -/

section

variable [BEq κ]

theorem skipRepeats_sublist (key : α → κ) (last : κ) (as : List α) :
    (skipRepeats key last as).Sublist as := by
  induction as generalizing last with
  | nil => exact List.Sublist.refl []
  | cons a as ih =>
    rw [skipRepeats]
    split
    · exact (ih last).cons a
    · exact (ih (key a)).cons_cons a

theorem firstOfEach_sublist (key : α → κ) (as : List α) : (firstOfEach key as).Sublist as := by
  cases as with
  | nil => exact List.Sublist.refl []
  | cons a as => exact (skipRepeats_sublist key (key a) as).cons_cons a

variable [LawfulBEq κ]

/-- A key that is not skipped as the last one is still there. -/
theorem exists_mem_skipRepeats (key : α → κ) (last : κ) {as : List α} {a : α} (h : a ∈ as) :
    key a = last ∨ ∃ b ∈ skipRepeats key last as, key b = key a := by
  induction as generalizing last with
  | nil => cases h
  | cons c as ih =>
    rw [skipRepeats]
    split
    next hskip =>
      rcases List.mem_cons.mp h with rfl | h
      · exact Or.inl (eq_of_beq hskip)
      · exact ih last h
    next hkeep =>
      right
      rcases List.mem_cons.mp h with rfl | h
      · exact ⟨a, List.mem_cons_self, rfl⟩
      · rcases ih (key c) h with heq | ⟨b, hb, hkey⟩
        · exact ⟨c, List.mem_cons_self, heq.symm⟩
        · exact ⟨b, List.mem_cons_of_mem _ hb, hkey⟩

theorem exists_mem_firstOfEach (key : α → κ) {as : List α} {a : α} (h : a ∈ as) :
    ∃ b ∈ firstOfEach key as, key b = key a := by
  cases as with
  | nil => cases h
  | cons c as =>
    rcases List.mem_cons.mp h with rfl | h
    · exact ⟨a, List.mem_cons_self, rfl⟩
    · rcases exists_mem_skipRepeats key (key c) h with heq | ⟨b, hb, hkey⟩
      · exact ⟨c, List.mem_cons_self, heq.symm⟩
      · exact ⟨b, List.mem_cons_of_mem _ hb, hkey⟩

theorem find?_key_cons_of_ne {key : α → κ} {k : κ} {c : α} (h : key c ≠ k) (as : List α) :
    (c :: as).find? (key · == k) = as.find? (key · == k) :=
  List.find?_cons_of_neg fun heq => h (eq_of_beq heq)

end

/-! ### Ascending keys -/

section

variable [Ord κ]

theorem Precedes.ne [Std.ReflOrd κ] {a b : κ} (h : Precedes a b) : a ≠ b := by
  rintro rfl
  rw [Precedes, Std.ReflOrd.compare_self] at h
  cases h

instance [Std.OrientedOrd κ] : Std.Asymm (@Precedes κ _) where
  asymm a b hab hba := by
    rw [Precedes, Std.OrientedOrd.eq_swap, hab] at hba
    cases hba

theorem precedes_of_isLE_of_ne [Std.LawfulEqOrd κ] {a b : κ} (h : (compare a b).isLE = true)
    (hne : a ≠ b) : Precedes a b := by
  rcases Ordering.isLE_iff_eq_lt_or_eq_eq.mp h with hlt | heq
  · exact hlt
  · exact absurd (Std.LawfulEqCmp.eq_of_compare heq) hne

theorem sortedBy_perm (key : α → κ) (as : List α) : (sortedBy key as).Perm as :=
  List.mergeSort_perm _ _

theorem pairwise_sortedBy [Std.TransOrd κ] (key : α → κ) (as : List α) :
    (sortedBy key as).Pairwise fun a b => (compare (key a) (key b)).isLE = true := by
  refine List.pairwise_mergeSort (fun a b c => Std.TransCmp.isLE_trans) (fun a b => ?_) as
  rw [Std.OrientedOrd.eq_swap (a := key b)]
  cases compare (key a) (key b) <;> rfl

variable [BEq κ] [LawfulBEq κ]

theorem mem_sortedDistinct {a : κ} {as : List κ} : a ∈ sortedDistinct as ↔ a ∈ as := by
  constructor
  · intro h
    exact (sortedBy_perm id as).mem_iff.mp ((firstOfEach_sublist id _).subset h)
  · intro h
    obtain ⟨b, hb, rfl⟩ := exists_mem_firstOfEach id ((sortedBy_perm id as).mem_iff.mpr h)
    exact hb

variable [Std.TransOrd κ] [Std.LawfulEqOrd κ]

/-- Behind a last key that comes before all others, keys ascend. -/
theorem pairwise_skipRepeats {key : α → κ} {last : κ} {as : List α}
    (hsorted : as.Pairwise fun a b => (compare (key a) (key b)).isLE = true)
    (hlast : ∀ a ∈ as, (compare last (key a)).isLE = true) :
    (∀ a ∈ skipRepeats key last as, Precedes last (key a)) ∧
      (skipRepeats key last as).Pairwise fun a b => Precedes (key a) (key b) := by
  induction as generalizing last with
  | nil => exact ⟨fun a ha => absurd ha List.not_mem_nil, List.Pairwise.nil⟩
  | cons c as ih =>
    obtain ⟨hc, hrest⟩ := List.pairwise_cons.mp hsorted
    obtain ⟨hlastc, hlastrest⟩ := List.forall_mem_cons.mp hlast
    rw [skipRepeats]
    split
    next hskip => exact ih hrest hlastrest
    next hkeep =>
      have hbefore : Precedes last (key c) :=
        precedes_of_isLE_of_ne hlastc fun heq => hkeep (beq_iff_eq.mpr heq.symm)
      obtain ⟨hafter, hpairs⟩ := ih hrest hc
      refine ⟨List.forall_mem_cons.mpr ⟨hbefore, fun a ha => ?_⟩,
        List.pairwise_cons.mpr ⟨hafter, hpairs⟩⟩
      exact Std.TransCmp.lt_trans hbefore (hafter a ha)

theorem pairwise_firstOfEach {key : α → κ} {as : List α}
    (hsorted : as.Pairwise fun a b => (compare (key a) (key b)).isLE = true) :
    (firstOfEach key as).Pairwise fun a b => Precedes (key a) (key b) := by
  cases as with
  | nil => exact List.Pairwise.nil
  | cons a as =>
    obtain ⟨ha, hrest⟩ := List.pairwise_cons.mp hsorted
    obtain ⟨hafter, hpairs⟩ := pairwise_skipRepeats hrest ha
    exact List.pairwise_cons.mpr ⟨hafter, hpairs⟩

/-- Behind a last key that comes before all others, what is kept of a key is its first member. -/
theorem find?_of_mem_skipRepeats {key : α → κ} {last : κ} {as : List α} {e : α}
    (hsorted : as.Pairwise fun a b => (compare (key a) (key b)).isLE = true)
    (hlast : ∀ a ∈ as, (compare last (key a)).isLE = true) (he : e ∈ skipRepeats key last as) :
    as.find? (key · == key e) = some e := by
  induction as generalizing last with
  | nil => cases he
  | cons c as ih =>
    have hbefore : Precedes last (key e) := (pairwise_skipRepeats hsorted hlast).1 e he
    obtain ⟨hc, hrest⟩ := List.pairwise_cons.mp hsorted
    rw [skipRepeats] at he
    split at he
    next hskip =>
      rw [find?_key_cons_of_ne ((eq_of_beq hskip).trans_ne hbefore.ne)]
      exact ih hrest (fun a ha => hlast a (List.mem_cons_of_mem c ha)) he
    next hkeep =>
      rcases List.mem_cons.mp he with rfl | he
      · exact List.find?_cons_of_pos (beq_self_eq_true (key e))
      · rw [find?_key_cons_of_ne ((pairwise_skipRepeats hrest hc).1 e he).ne]
        exact ih hrest hc he

/-- Sorting leaves members with one key in their order. -/
theorem filter_sortedBy (key : α → κ) (k : κ) (as : List α) :
    (sortedBy key as).filter (key · == k) = as.filter (key · == k) := by
  have hkeys : (as.filter (key · == k)).Pairwise fun a b =>
      (compare (key a) (key b)).isLE = true := by
    refine List.pairwise_of_forall_mem_list fun a ha b hb => ?_
    rw [eq_of_beq (List.mem_filter.mp ha).2, eq_of_beq (List.mem_filter.mp hb).2,
      Std.ReflOrd.compare_self]
    rfl
  -- members with one key are in order already, so a stable sort leaves them as they are
  have hpart : (as.filter (key · == k)).Sublist (sortedBy key as) := by
    refine List.sublist_mergeSort (fun a b c => Std.TransCmp.isLE_trans) (fun a b => ?_) hkeys
      List.filter_sublist
    rw [Std.OrientedOrd.eq_swap (a := key b)]
    cases compare (key a) (key b) <;> rfl
  have hfilter := hpart.filter (key · == k)
  rw [List.filter_filter] at hfilter
  simp only [Bool.and_self] at hfilter
  exact (hfilter.eq_of_length ((sortedBy_perm key as).filter _).length_eq.symm).symm

/-- Of the members with one key the first one is kept. -/
theorem find?_of_mem_firstOfEach {key : α → κ} {as : List α} {e : α}
    (he : e ∈ firstOfEach key (sortedBy key as)) : as.find? (key · == key e) = some e := by
  have hsorted := pairwise_sortedBy key as
  rw [← List.head?_filter, ← filter_sortedBy key (key e) as, List.head?_filter]
  cases hall : sortedBy key as with
  | nil =>
    rw [hall] at he
    cases he
  | cons c rest =>
    rw [hall] at he hsorted
    obtain ⟨hc, hrest⟩ := List.pairwise_cons.mp hsorted
    rcases List.mem_cons.mp he with rfl | he
    · exact List.find?_cons_of_pos (beq_self_eq_true (key e))
    · rw [find?_key_cons_of_ne ((pairwise_skipRepeats hrest hc).1 e he).ne]
      exact find?_of_mem_skipRepeats hrest hc he

/-- Sorted by keys, a list keeps a member exactly if it is the first one with its key. -/
theorem mem_firstOfEach_sortedBy {key : α → κ} {as : List α} {e : α} :
    e ∈ firstOfEach key (sortedBy key as) ↔ as.find? (key · == key e) = some e := by
  refine ⟨find?_of_mem_firstOfEach, fun hfirst => ?_⟩
  have hmem := (sortedBy_perm key as).mem_iff.mpr (List.mem_of_find?_eq_some hfirst)
  obtain ⟨b, hb, hkey⟩ := exists_mem_firstOfEach key hmem
  have hfound := find?_of_mem_firstOfEach hb
  rw [hkey, hfirst] at hfound
  exact Option.some.inj hfound ▸ hb

/-- The first members of each key, sorted by keys, have distinct keys. -/
theorem nodup_keys_firstOfEach (key : α → κ) (as : List α) :
    ((firstOfEach key (sortedBy key as)).map key).Nodup := by
  rw [List.Nodup, List.pairwise_map]
  exact (pairwise_firstOfEach (pairwise_sortedBy key as)).imp Precedes.ne

/-- Only the first member with each key counts. -/
theorem firstOfEach_sortedBy_congr {key : α → κ} {as bs : List α}
    (h : ∀ k, as.find? (key · == k) = bs.find? (key · == k)) :
    firstOfEach key (sortedBy key as) = firstOfEach key (sortedBy key bs) := by
  have hasc (cs : List α) := pairwise_firstOfEach (pairwise_sortedBy key cs)
  refine List.Perm.eq_of_pairwise (fun a b _ _ hab hba => ?_) (hasc as) (hasc bs) ?_
  · exact absurd hba (Std.Asymm.asymm _ _ hab)
  · have hnodup (cs : List α) := (nodup_keys_firstOfEach key cs).of_map
    refine (List.perm_ext_iff_of_nodup (hnodup as) (hnodup bs)).mpr fun e => ?_
    rw [mem_firstOfEach_sortedBy, mem_firstOfEach_sortedBy, h]

theorem pairwise_sortedDistinct (as : List κ) : (sortedDistinct as).Pairwise Precedes :=
  pairwise_firstOfEach (pairwise_sortedBy id as)

theorem nodup_sortedDistinct (as : List κ) : (sortedDistinct as).Nodup :=
  (pairwise_sortedDistinct as).imp Precedes.ne

/-- A list in ascending order is left as it is. -/
theorem sortedDistinct_eq_self {as : List κ} (h : as.Pairwise Precedes) : sortedDistinct as = as :=
  List.Pairwise.eq_of_mem_iff (pairwise_sortedDistinct as) h fun _ => mem_sortedDistinct

/-- Only the members count, not their order and how often they stand there. -/
theorem sortedDistinct_congr {as bs : List κ} (h : ∀ a, a ∈ as ↔ a ∈ bs) :
    sortedDistinct as = sortedDistinct bs :=
  List.Pairwise.eq_of_mem_iff (pairwise_sortedDistinct as) (pairwise_sortedDistinct bs) fun a => by
    rw [mem_sortedDistinct, mem_sortedDistinct, h a]

end

/-! ### Orders of names -/

/-- Members that agree in two parts are compared as equal by one part and then the other. -/
theorem eq_of_then_eq {β γ : Type} [Ord β] [Ord γ] [Std.LawfulEqOrd β] [Std.LawfulEqOrd γ] {b b' : β}
    {c c' : γ} (h : (compare b b').then (compare c c') = .eq) : b = b' ∧ c = c' := by
  obtain ⟨hb, hc⟩ := Ordering.then_eq_eq.mp h
  exact ⟨Std.LawfulEqCmp.eq_of_compare hb, Std.LawfulEqCmp.eq_of_compare hc⟩

instance : Std.TransOrd TypeId :=
  inferInstanceAs (Std.TransCmp (compareLex (compareOn TypeId.package) (compareOn TypeId.name)))

instance : Std.LawfulEqOrd TypeId where
  eq_of_compare {a b} h := by
    obtain ⟨hpackage, hname⟩ := eq_of_then_eq h
    cases a
    cases b
    simp only [TypeId.mk.injEq]
    exact ⟨hpackage, hname⟩

instance : Std.TransOrd FunctionId :=
  inferInstanceAs (Std.TransCmp (compareLex (compareOn FunctionId.package)
    (compareLex (compareOn FunctionId.receiver) (compareOn FunctionId.name))))

instance : Std.LawfulEqOrd FunctionId where
  eq_of_compare {a b} h := by
    obtain ⟨hpackage, hrest⟩ := Ordering.then_eq_eq.mp h
    obtain ⟨hreceiver, hname⟩ := eq_of_then_eq hrest
    cases a
    cases b
    simp only [FunctionId.mk.injEq]
    exact ⟨Std.LawfulEqCmp.eq_of_compare hpackage, hreceiver, hname⟩

instance : Std.TransOrd CallTarget :=
  inferInstanceAs (Std.TransCmp (compareLex (compareOn CallTarget.rank) (compareOn CallTarget.key)))

instance : Std.LawfulEqOrd CallTarget where
  eq_of_compare {a b} h := by
    obtain ⟨hrank, hkey⟩ := eq_of_then_eq h
    cases a <;> cases b <;> simp_all [CallTarget.rank, CallTarget.key]

instance : Std.TransOrd CallKey :=
  inferInstanceAs (Std.TransCmp (compareLex (compareOn CallKey.caller)
    (compareLex (compareOn CallKey.target) (compareOn fun k => k.kind.rank))))

instance : Std.LawfulEqOrd CallKey where
  eq_of_compare {a b} h := by
    obtain ⟨hcaller, hrest⟩ := Ordering.then_eq_eq.mp h
    obtain ⟨htarget, hrank⟩ := eq_of_then_eq hrest
    have hkind : a.kind = b.kind := by
      revert hrank
      cases a.kind <;> cases b.kind <;> simp [CallKind.rank]
    cases a
    cases b
    simp only [CallKey.mk.injEq]
    exact ⟨Std.LawfulEqCmp.eq_of_compare hcaller, htarget, hkind⟩

end CodeGraph

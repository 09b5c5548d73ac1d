import Mathlib.Data.List.Forall2
import Mathlib.Data.List.Nodup
import Mathlib.Data.List.Perm.Basic

/-!
# Lists

* `nodup_eraseDups` — nothing is left twice.
* `nodup_flatMap_of_keys`, `map_filterMap_sublist` — keys tell apart what is made of members.
* `nodup_map_congr`, `nodup_iff_filter` — members are distinct by another figure, or label by label.
* `append_cons_inj`, `takeWhile_ne_append_cons`, `dropWhile_ne_append_cons` — what comes before the
  first mark and what comes after it.
* `flatMap_filter_perm`, `filter_flatMap_of_keys` — members sorted into groups by a label are the same
  members, and the group of a label has those with the label.
* `filter_key_perm`, `find?_key_perm`, `find?_flatMap_perm`, `flatMap_perm_of_keys` — what does not depend
  on the order of members.
* `forall₂_filterMap`, `forall₂_trans`, `exists_of_forall₂` — what is made of every member, one for one;
  `find?_of_forall₂`, `flatMap_eq_of_forall₂` — what is found in both lists and what is read off both.
* `map_zipIdx_fst`, `flatMap_zipIdx_fst` — what is made of members with their places; `cases_of_map_eq` —
  what is found on both sides.
* `flatMap_filter`, `filter_filterMap` — what is made of the members that pass a test.
* `lookup_map_key`, `lookup_map_pair` — values under keys.
* `mem_and_iff_of_filter_eq`, `filter_eq_of_mem_and_iff` — what alone is selected.
* `filter_key_eq_singleton`, `find?_key_eq_some` — what has the key of a member.
* `foldlM_ok_ind` — what the steps of a fold that can fail keep; `foldlM_ok_of_imp` replaces the steps,
  and `exists_foldlM_ok` says when none of them fails.
-/

namespace CodeGraph

variable {α : Type}

theorem nodup_eraseDups [BEq α] [LawfulBEq α] (as : List α) : as.eraseDups.Nodup := by
  induction hn : as.length using Nat.strongRecOn generalizing as with
  | ind n ih =>
    cases as with
    | nil => exact List.nodup_nil
    | cons a as =>
      have hshort : (as.filter fun b => !b == a).length < n := by
        have hle := List.length_filter_le (fun b => !b == a) as
        rw [List.length_cons] at hn
        omega
      rw [List.eraseDups_cons, List.nodup_cons]
      refine ⟨fun hmem => ?_, ih _ hshort _ rfl⟩
      have hfilter := List.mem_eraseDups.mp hmem
      simp at hfilter

/-- Groups of members that know the key of their group have no member in common. -/
theorem nodup_flatMap_of_keys {β κ : Type} {as : List α} {part : α → List β} (key : α → κ)
    (owner : β → κ) (hkeys : (as.map key).Nodup) (howner : ∀ a ∈ as, ∀ b ∈ part a, owner b = key a)
    (hparts : ∀ a ∈ as, (part a).Nodup) : (as.flatMap part).Nodup := by
  refine List.nodup_flatMap.mpr ⟨hparts, ?_⟩
  refine List.Pairwise.imp_of_mem ?_ (List.pairwise_map.mp hkeys)
  intro a a' ha ha' hne b hb hb'
  exact hne ((howner a ha b hb).symm.trans (howner a' ha' b hb'))

/-- What is made of some members, by the keys of those members. -/
theorem map_filterMap_sublist {β κ : Type} {as : List α} {make : α → Option β} (key : α → κ)
    (owner : β → κ) (howner : ∀ a ∈ as, ∀ b, make a = some b → owner b = key a) :
    ((as.filterMap make).map owner).Sublist (as.map key) := by
  induction as with
  | nil => exact List.Sublist.refl []
  | cons a as ih =>
    obtain ⟨ha, hrest⟩ := List.forall_mem_cons.mp howner
    cases hmake : make a with
    | none =>
      rw [List.filterMap_cons_none hmake]
      exact (ih hrest).cons _
    | some b =>
      rw [List.filterMap_cons_some hmake, List.map_cons, List.map_cons, ha b hmake]
      exact (ih hrest).cons_cons _

/-- A figure that another one depends on tells as many members apart. -/
theorem nodup_map_of_imp {β γ : Type} {as : List α} {f : α → β} {g : α → γ}
    (h : ∀ a ∈ as, ∀ b ∈ as, g a = g b → f a = f b) (hf : (as.map f).Nodup) : (as.map g).Nodup := by
  rw [List.Nodup, List.pairwise_map] at hf ⊢
  exact hf.imp_of_mem fun ha hb hne hg => hne (h _ ha _ hb hg)

/-- Two figures that tell the same members apart are distinct at the same time. -/
theorem nodup_map_congr {β γ : Type} {as : List α} {f : α → β} {g : α → γ}
    (h : ∀ a ∈ as, ∀ b ∈ as, f a = f b ↔ g a = g b) : (as.map f).Nodup ↔ (as.map g).Nodup :=
  ⟨nodup_map_of_imp fun a ha b hb => (h a ha b hb).mpr,
    nodup_map_of_imp fun a ha b hb => (h a ha b hb).mp⟩

/-- A list has no member twice exactly if no label has. -/
theorem nodup_iff_filter {κ : Type} [DecidableEq α] [DecidableEq κ] (label : α → κ) {as : List α} :
    as.Nodup ↔ ∀ k, (as.filter (label · = k)).Nodup := by
  constructor
  · intro h k
    exact h.filter _
  · intro h
    refine List.nodup_iff_count_le_one.mpr fun a => ?_
    have hcount : List.count a (as.filter (label · = label a)) = List.count a as :=
      List.count_filter (by simp)
    rw [← hcount]
    exact List.nodup_iff_count_le_one.mp (h (label a)) a

/-- What is made of members with their places, but not of the places. -/
theorem map_zipIdx_fst {β : Type} (f : α → β) (as : List α) :
    (as.zipIdx.map fun u => f u.1) = as.map f := by
  conv_rhs => rw [← List.zipIdx_map_fst 0 as, List.map_map]
  rfl

theorem flatMap_zipIdx_fst {β : Type} (f : α → List β) (as : List α) :
    (as.zipIdx.flatMap fun u => f u.1) = as.flatMap f := by
  rw [← List.flatMap_map Prod.fst, List.zipIdx_map_fst]

/-- What is made of members that pass a test, with nothing made of the others. -/
theorem flatMap_filter {β : Type} (test : α → Bool) (f : α → List β) (as : List α) :
    (as.filter test).flatMap f = as.flatMap fun a => if test a then f a else [] := by
  induction as with
  | nil => rfl
  | cons a as ih =>
    rw [List.filter_cons, List.flatMap_cons, ← ih]
    split
    · rfl
    · rfl

/-- The value of a key among pairs: it is that of the first member with the key. -/
theorem lookup_map_key {β κ : Type} [DecidableEq κ] (key : α → κ) (value : α → β) (as : List α) (k : κ) :
    (as.map fun a => (key a, value a)).lookup k = (as.find? (key · = k)).map value := by
  induction as with
  | nil => rfl
  | cons a as ih =>
    rw [List.map_cons, List.lookup_cons, List.find?_cons]
    by_cases hk : key a = k
    · rw [beq_iff_eq.mpr hk.symm, decide_eq_true hk]
      rfl
    · rw [beq_eq_false_iff_ne.mpr (Ne.symm hk), decide_eq_false hk]
      exact ih

/-- The value of a key among pairs that are made of keys. -/
theorem lookup_map_pair {β : Type} [DecidableEq α] (f : α → β) (keys : List α) (a : α) :
    (keys.map fun k => (k, f k)).lookup a = if a ∈ keys then some (f a) else none := by
  rw [lookup_map_key (fun k => k) f]
  cases hfind : keys.find? (· = a) with
  | none =>
    rw [if_neg fun hmem => List.find?_eq_none.mp hfind a hmem (decide_eq_true rfl)]
    rfl
  | some b =>
    obtain rfl : b = a := by simpa using List.find?_some hfind
    rw [if_pos (List.mem_of_find?_eq_some hfind)]
    rfl

/-- What is alike from outside is found on both sides or on none. -/
theorem cases_of_map_eq {β : Type} {f : α → β} {a b : Option α} (h : a.map f = b.map f) :
    (a = none ∧ b = none) ∨ ∃ x y, a = some x ∧ b = some y ∧ f x = f y := by
  cases a with
  | none => exact Or.inl ⟨rfl, Option.map_eq_none_iff.mp h.symm⟩
  | some x =>
    obtain ⟨y, rfl, hy⟩ := Option.map_eq_some_iff.mp h.symm
    exact Or.inr ⟨x, y, rfl, rfl, hy.symm⟩

/-- What alone is selected is the only member with the property. -/
theorem mem_and_iff_of_filter_eq {P : α → Prop} [DecidablePred P] {as : List α} {a b : α}
    (h : as.filter (fun b => P b) = [a]) : b ∈ as ∧ P b ↔ b = a := by
  rw [← List.mem_singleton, ← h, List.mem_filter, decide_eq_true_eq]

/-- The only member with a property is what alone is selected. -/
theorem filter_eq_of_mem_and_iff {P : α → Prop} [DecidablePred P] {as : List α} {a : α}
    (hnodup : as.Nodup) (h : ∀ b, b ∈ as ∧ P b ↔ b = a) : as.filter (fun b => P b) = [a] := by
  refine List.perm_singleton.mp ?_
  refine (List.perm_ext_iff_of_nodup (hnodup.filter _) (List.nodup_singleton a)).mpr fun b => ?_
  rw [List.mem_filter, List.mem_singleton, decide_eq_true_eq]
  exact h b

/-- Where keys are distinct, only a member itself has its key. -/
theorem filter_key_eq_singleton {κ : Type} [DecidableEq κ] {key : α → κ} {as : List α} {a : α}
    (hnodup : (as.map key).Nodup) (ha : a ∈ as) : as.filter (key · = key a) = [a] := by
  refine filter_eq_of_mem_and_iff hnodup.of_map fun b => ⟨?_, ?_⟩
  · rintro ⟨hb, hkey⟩
    exact List.inj_on_of_nodup_map hnodup hb ha hkey
  · rintro rfl
    exact ⟨ha, rfl⟩

/-- Where keys are distinct, what has a key is what is found under it. -/
theorem find?_key_eq_some {κ : Type} [DecidableEq κ] {key : α → κ} {k : κ} {as : List α} {a : α}
    (hnodup : (as.map key).Nodup) : as.find? (key · = k) = some a ↔ a ∈ as ∧ key a = k := by
  constructor
  · intro h
    exact ⟨List.mem_of_find?_eq_some h, by simpa using List.find?_some h⟩
  · rintro ⟨ha, rfl⟩
    rw [← List.head?_filter, filter_key_eq_singleton hnodup ha]
    rfl

/-- What comes before the first mark and what comes after it. -/
theorem append_cons_inj {a : α} {xs ys us vs : List α} (hx : a ∉ xs) (hy : a ∉ ys)
    (h : xs ++ a :: us = ys ++ a :: vs) : xs = ys ∧ us = vs := by
  induction xs generalizing ys with
  | nil =>
    cases ys with
    | nil => exact ⟨rfl, (List.cons.inj h).2⟩
    | cons y ys => exact absurd ((List.cons.inj h).1 ▸ List.mem_cons_self) hy
  | cons x xs ih =>
    cases ys with
    | nil => exact absurd ((List.cons.inj h).1 ▸ List.mem_cons_self) hx
    | cons y ys =>
      obtain ⟨rfl, hrest⟩ := List.cons.inj h
      obtain ⟨rfl, rfl⟩ := ih (fun hm => hx (List.mem_cons_of_mem _ hm))
        (fun hm => hy (List.mem_cons_of_mem _ hm)) hrest
      exact ⟨rfl, rfl⟩

theorem takeWhile_ne_append_cons [DecidableEq α] {a : α} {xs ys : List α} (h : a ∉ xs) :
    (xs ++ a :: ys).takeWhile (· ≠ a) = xs := by
  rw [List.takeWhile_append_of_pos fun x hx => decide_eq_true (ne_of_mem_of_not_mem hx h),
    List.takeWhile_cons_of_neg (by simp), List.append_nil]

theorem dropWhile_ne_append_cons [DecidableEq α] {a : α} {xs ys : List α} (h : a ∉ xs) :
    (xs ++ a :: ys).dropWhile (· ≠ a) = a :: ys := by
  rw [List.dropWhile_append_of_pos fun x hx => decide_eq_true (ne_of_mem_of_not_mem hx h),
    List.dropWhile_cons_of_neg (by simp)]

/-- Members sorted into groups by a label are the same members. -/
theorem flatMap_filter_perm {κ : Type} [DecidableEq κ] (label : α → κ) {labels : List κ}
    (hnodup : labels.Nodup) (as : List α) (hall : ∀ a ∈ as, label a ∈ labels) :
    (labels.flatMap fun k => as.filter (label · = k)).Perm as := by
  induction as with
  | nil => simp
  | cons a as ih =>
    obtain ⟨hlabel, hrest⟩ := List.forall_mem_cons.mp hall
    have hgroups := ih hrest
    -- the label of `a` stands at one place only, and `a` comes first in its group
    obtain ⟨before, after, rfl⟩ := List.append_of_mem hlabel
    obtain ⟨hbefore, hafter⟩ : label a ∉ before ∧ label a ∉ after := by
      rw [List.nodup_middle, List.nodup_cons, List.mem_append, not_or] at hnodup
      exact hnodup.1
    have hother : ∀ ks : List κ, label a ∉ ks →
        (ks.flatMap fun k => (a :: as).filter (label · = k)) =
          ks.flatMap fun k => as.filter (label · = k) := by
      intro ks hks
      refine List.flatMap_congr fun k hk => ?_
      rw [List.filter_cons_of_neg]
      simpa using fun h : label a = k => hks (h ▸ hk)
    rw [List.flatMap_append, List.flatMap_cons] at hgroups ⊢
    rw [hother before hbefore, hother after hafter, List.filter_cons_of_pos (by simp),
      List.cons_append]
    exact List.perm_middle.trans (hgroups.cons a)

/-- Of groups whose members know the key of their group, those with a key are the members with it. -/
theorem filter_flatMap_of_keys {κ : Type} [DecidableEq κ] {owner : α → κ} {groups : List (κ × List α)}
    (howner : ∀ g ∈ groups, ∀ a ∈ g.2, owner a = g.1) (k : κ) :
    (groups.flatMap Prod.snd).filter (owner · = k) =
      (groups.filter (·.1 = k)).flatMap Prod.snd := by
  induction groups with
  | nil => rfl
  | cons g groups ih =>
    obtain ⟨hg, hrest⟩ := List.forall_mem_cons.mp howner
    rw [List.flatMap_cons, List.filter_append, ih hrest]
    by_cases hk : g.1 = k
    · rw [List.filter_cons_of_pos (by simpa using hk), List.flatMap_cons,
        List.filter_eq_self.mpr fun a ha => decide_eq_true ((hg a ha).trans hk)]
    · rw [List.filter_cons_of_neg (by simpa using hk),
        List.filter_eq_nil_iff.mpr fun a ha => by simpa [hg a ha] using hk, List.nil_append]

/-! ### Members in any order -/

/-- Where keys are distinct, what has a key does not depend on the order of the members. -/
theorem filter_key_perm {κ : Type} [DecidableEq κ] {key : α → κ} {as bs : List α} (h : as.Perm bs)
    (hnodup : (as.map key).Nodup) (k : κ) : as.filter (key · = k) = bs.filter (key · = k) := by
  have hpart := h.filter (key · = k)
  cases hbs : bs.filter (key · = k) with
  | nil => exact List.perm_nil.mp (hbs ▸ hpart)
  | cons b rest =>
    obtain ⟨hb, hkey⟩ := List.mem_filter.mp (hbs ▸ List.mem_cons_self)
    obtain rfl := of_decide_eq_true hkey
    rw [← hbs, filter_key_eq_singleton hnodup (h.mem_iff.mpr hb),
      filter_key_eq_singleton ((h.map key).nodup_iff.mp hnodup) hb]

theorem find?_key_perm {κ : Type} [DecidableEq κ] {key : α → κ} {as bs : List α} (h : as.Perm bs)
    (hnodup : (as.map key).Nodup) (k : κ) : as.find? (key · = k) = bs.find? (key · = k) := by
  rw [← List.head?_filter, ← List.head?_filter, filter_key_perm h hnodup]

/-- Where groups have distinct keys and their members know them, what is found under a key does not
depend on the order of the groups. -/
theorem find?_flatMap_perm {β κ : Type} [DecidableEq κ] {key : α → κ} {owner : β → κ}
    {part : α → List β} {as bs : List α} (h : as.Perm bs) (hnodup : (as.map key).Nodup)
    (howner : ∀ a, ∀ b ∈ part a, owner b = key a) {k : κ} {test : β → Bool}
    (htest : ∀ b, test b = true → owner b = k) :
    (as.flatMap part).find? test = (bs.flatMap part).find? test := by
  have hgroup (cs : List α) :
      (cs.flatMap part).find? test = ((cs.filter (key · = k)).flatMap part).find? test := by
    have hgroups : (cs.flatMap part).filter (owner · = k) = (cs.filter (key · = k)).flatMap part := by
      have hpairs : ∀ g ∈ cs.map fun a => (key a, part a), ∀ b ∈ g.2, owner b = g.1 :=
        List.forall_mem_map.mpr fun a _ => howner a
      have hfilter := filter_flatMap_of_keys hpairs k
      rwa [List.flatMap_map, List.filter_map, List.flatMap_map] at hfilter
    rw [← hgroups, List.find?_filter]
    refine congrArg (fun test => (cs.flatMap part).find? test) (funext fun b => ?_)
    cases hb : test b with
    | false => simp
    | true => simp [htest b hb]
  rw [hgroup as, hgroup bs, filter_key_perm h hnodup]

/-- What is made of members that have the same keys up to order is the same up to order. -/
theorem flatMap_perm_of_keys {β γ κ : Type} {key : α → κ} {key' : β → κ} {part : α → List γ}
    {part' : β → List γ} {as : List α} {bs : List β} (h : (as.map key).Perm (bs.map key'))
    (hpart : ∀ a ∈ as, ∀ b ∈ bs, key a = key' b → (part a).Perm (part' b)) :
    (as.flatMap part).Perm (bs.flatMap part') := by
  induction as generalizing bs with
  | nil =>
    obtain rfl := List.map_eq_nil_iff.mp (List.nil_perm.mp h)
    exact List.Perm.refl _
  | cons a as ih =>
    obtain ⟨b, hb, hkey⟩ := List.mem_map.mp (h.mem_iff.mp List.mem_cons_self)
    obtain ⟨before, after, rfl⟩ := List.append_of_mem hb
    -- the member across from `a` is brought to the front
    have hfront : (before ++ b :: after).Perm (b :: (before ++ after)) := List.perm_middle
    have hrest : (as.map key).Perm ((before ++ after).map key') := by
      have hall := h.trans (hfront.map key')
      rw [List.map_cons, List.map_cons, hkey] at hall
      exact hall.cons_inv
    have hother := ih hrest fun a' ha' b' hb' =>
      hpart a' (List.mem_cons_of_mem _ ha') b' (hfront.mem_iff.mpr (List.mem_cons_of_mem _ hb'))
    refine List.Perm.trans ?_ (hfront.flatMap_right part').symm
    exact (hpart a List.mem_cons_self b hb hkey.symm).append hother

/-! ### Members one for one -/

/-- Where something is made of every member, it is made one for one. -/
theorem forall₂_filterMap {β : Type} {make : α → Option β} {as : List α}
    (h : ∀ a ∈ as, (make a).isSome) :
    List.Forall₂ (fun a b => make a = some b) as (as.filterMap make) := by
  induction as with
  | nil => exact List.Forall₂.nil
  | cons a as ih =>
    obtain ⟨ha, hrest⟩ := List.forall_mem_cons.mp h
    obtain ⟨b, hb⟩ := Option.isSome_iff_exists.mp ha
    rw [List.filterMap_cons_some hb]
    exact List.Forall₂.cons hb (ih hrest)

theorem forall₂_trans {β γ : Type} {R : α → β → Prop} {S : β → γ → Prop} {T : α → γ → Prop}
    (hstep : ∀ a b c, R a b → S b c → T a c) {as : List α} {bs : List β} {cs : List γ}
    (h : List.Forall₂ R as bs) (h' : List.Forall₂ S bs cs) : List.Forall₂ T as cs := by
  induction h generalizing cs with
  | nil =>
    cases h'
    exact List.Forall₂.nil
  | cons hR _ ih =>
    cases h' with
    | cons hS hrest => exact List.Forall₂.cons (hstep _ _ _ hR hS) (ih hrest)

/-- What stands at the right of a relation stands across from something. -/
theorem exists_of_forall₂ {β : Type} {R : α → β → Prop} {as : List α} {bs : List β}
    (h : List.Forall₂ R as bs) {b : β} (hb : b ∈ bs) : ∃ a ∈ as, R a b := by
  induction h with
  | nil => cases hb
  | cons hR _ ih =>
    rcases List.mem_cons.mp hb with rfl | hb
    · exact ⟨_, List.mem_cons_self, hR⟩
    · obtain ⟨a, ha, hab⟩ := ih hb
      exact ⟨a, List.mem_cons_of_mem _ ha, hab⟩

/-- What is found first on both sides stands across from each other. -/
theorem find?_of_forall₂ {β : Type} {R : α → β → Prop} {as : List α} {bs : List β}
    (h : List.Forall₂ R as bs) {test : α → Bool} {test' : β → Bool}
    (htest : ∀ a b, R a b → test a = test' b) :
    Option.Rel R (as.find? test) (bs.find? test') := by
  induction h with
  | nil => exact .none
  | @cons a b as bs hR _ ih =>
    rw [List.find?_cons, List.find?_cons, htest a b hR]
    cases test' b with
    | true => exact .some hR
    | false => exact ih

/-- What is read off the members is the same on both sides. -/
theorem flatMap_eq_of_forall₂ {β γ : Type} {R : α → β → Prop} {as : List α} {bs : List β}
    (h : List.Forall₂ R as bs) {f : α → List γ} {g : β → List γ} (hfg : ∀ a b, R a b → f a = g b) :
    as.flatMap f = bs.flatMap g := by
  induction h with
  | nil => rfl
  | cons hR _ ih => rw [List.flatMap_cons, List.flatMap_cons, hfg _ _ hR, ih]

/-! ### Steps that can fail -/

theorem except_bind_eq_ok {β ε : Type} {r : Except ε α} {f : α → Except ε β} {b : β} :
    r >>= f = .ok b ↔ ∃ a, r = .ok a ∧ f a = .ok b := by
  cases r with
  | error e => simp [bind, Except.bind]
  | ok a => simp [bind, Except.bind]

theorem except_bind_eq_error {β ε : Type} {r : Except ε α} {f : α → Except ε β} {e : ε} :
    r >>= f = .error e ↔ r = .error e ∨ ∃ a, r = .ok a ∧ f a = .error e := by
  cases r with
  | error e' => simp [bind, Except.bind]
  | ok a => simp [bind, Except.bind]

theorem except_map_eq_ok {β ε : Type} {f : α → β} {r : Except ε α} {b : β} :
    r.map f = .ok b ↔ ∃ a, r = .ok a ∧ f a = b := by
  cases r with
  | error e => simp [Except.map]
  | ok a => simp [Except.map]

/-- What is kept by every step that is made is kept by all of them. -/
theorem foldlM_ok_ind_mem {β ε : Type} {P : β → Prop} {step : β → α → Except ε β} {as : List α}
    {b b' : β} (hstep : ∀ c, ∀ a ∈ as, ∀ c', P c → step c a = .ok c' → P c') (hb : P b)
    (h : as.foldlM step b = .ok b') : P b' := by
  induction as generalizing b with
  | nil =>
    obtain rfl := Except.ok.inj h
    exact hb
  | cons a as ih =>
    rw [List.foldlM_cons] at h
    obtain ⟨c, hc, h⟩ := except_bind_eq_ok.mp h
    exact ih (fun c a ha => hstep c a (List.mem_cons_of_mem _ ha)) (hstep b a List.mem_cons_self c hb hc) h

/-- What is kept by every step is kept by all of them. -/
theorem foldlM_ok_ind {β ε : Type} {P : β → Prop} {step : β → α → Except ε β} {as : List α} {b b' : β}
    (hstep : ∀ c a c', P c → step c a = .ok c' → P c') (hb : P b)
    (h : as.foldlM step b = .ok b') : P b' :=
  foldlM_ok_ind_mem (fun c a _ => hstep c a) hb h

/-- Where all steps succeed, each of them does. -/
theorem exists_step_of_foldlM {β ε : Type} {step : β → α → Except ε β} {as : List α} {a : α} {b b' : β}
    (h : as.foldlM step b = .ok b') (ha : a ∈ as) : ∃ c c', step c a = .ok c' := by
  obtain ⟨before, after, rfl⟩ := List.append_of_mem ha
  rw [List.foldlM_append] at h
  obtain ⟨c, -, h⟩ := except_bind_eq_ok.mp h
  rw [List.foldlM_cons] at h
  obtain ⟨c', hc', -⟩ := except_bind_eq_ok.mp h
  exact ⟨c, c', hc'⟩

/-- Where each step succeeds, whatever comes before it, all of them do. -/
theorem exists_foldlM_ok {β ε : Type} {step : β → α → Except ε β} {as : List α}
    (hstep : ∀ c, ∀ a ∈ as, ∃ c', step c a = .ok c') (b : β) : ∃ b', as.foldlM step b = .ok b' := by
  induction as generalizing b with
  | nil => exact ⟨b, rfl⟩
  | cons a as ih =>
    obtain ⟨c, hc⟩ := hstep b a List.mem_cons_self
    obtain ⟨b', hb'⟩ := ih (fun c a ha => hstep c a (List.mem_cons_of_mem _ ha)) c
    exact ⟨b', by rw [List.foldlM_cons]; exact except_bind_eq_ok.mpr ⟨c, hc, hb'⟩⟩

/-- What some steps give is given by any other steps that do as much. -/
theorem foldlM_ok_of_imp {β ε : Type} {step step' : β → α → Except ε β} {as : List α} {b b' : β}
    (hstep : ∀ c a c', step c a = .ok c' → step' c a = .ok c') (h : as.foldlM step b = .ok b') :
    as.foldlM step' b = .ok b' := by
  induction as generalizing b with
  | nil => exact h
  | cons a as ih =>
    rw [List.foldlM_cons] at h ⊢
    obtain ⟨c, hc, h⟩ := except_bind_eq_ok.mp h
    exact except_bind_eq_ok.mpr ⟨c, hstep b a c hc, ih h⟩

end CodeGraph

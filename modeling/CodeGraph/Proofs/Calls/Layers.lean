import CodeGraph.Proofs.Calls.Chain
import CodeGraph.Proofs.Calls.Sites
import Mathlib.Algebra.GroupWithZero.Nat

/-!
# Calls from layer to layer

* `Layered` — each function of a layer calls exactly those of the next one.
* `CallGraph.length_allFrom_of_layered` — above layers there are as many chains as the product of the
  numbers of their functions.
* `Package.CallsByName` — a package in which functions call each other by name alone; `calls_iff` says
  which calls such a package makes.
* `Package.ofLayers` — a program with functions in layers; `layered_ofLayers` says that they are.
-/

namespace CodeGraph

/-! ### Chains through layers -/

/-- Each function of a layer calls exactly those of the next one, and those of the last layer none. -/
def Layered (edges : List CallEdge) : List (List FunctionId) → Prop
  | [] => True
  | layer :: below =>
    (∀ f ∈ layer, ∀ g, Calls edges f g ↔ g ∈ below.headD []) ∧ Layered edges below

namespace CallGraph

section

variable {edges : List CallEdge} {layer next : List FunctionId}
  {below : List (List FunctionId)} {root last : FunctionId} {before : List FunctionId}

/-- A chain goes on through all of the next layer. -/
theorem onward_perm_of_layered (h : Layered edges (layer :: next :: below))
    (hlast : last ∈ layer) (hnext : next.Nodup) (hnew : ∀ f ∈ last :: before, f ∉ next) :
    ((ofEdges edges).onward (last :: before)).Perm next := by
  refine (List.perm_ext_iff_of_nodup ?_ hnext).mpr fun f => ?_
  · exact (pairwise_onward edges _).imp Precedes.ne
  · rw [mem_onward, h.1 last hlast f]
    exact and_iff_left_of_imp fun hf hmem => hnew f hmem hf

theorem onward_ne_nil_of_layered (h : Layered edges (layer :: next :: below))
    (hlast : last ∈ layer) (hsome : next ≠ []) (hnext : next.Nodup)
    (hnew : ∀ f ∈ last :: before, f ∉ next) :
    (ofEdges edges).onward (last :: before) ≠ [] := by
  intro hnil
  have hperm := onward_perm_of_layered h hlast hnext hnew
  exact hsome (List.nil_perm.mp (hnil ▸ hperm))

theorem onward_eq_nil_of_layered (h : Layered edges [layer]) (hlast : last ∈ layer) :
    (ofEdges edges).onward (last :: before) = [] := by
  refine List.eq_nil_iff_forall_not_mem.mpr fun f hf => ?_
  exact List.not_mem_nil ((h.1 last hlast f).mp (mem_onward.mp hf).1)

/-- By induction on the layers below: each of the next functions has as many chains as the others. -/
theorem length_allThrough_of_layered {depth : Nat} (h : Layered edges (layer :: below))
    (hlast : last ∈ layer) (hsome : ∀ l ∈ below, l ≠ []) (hnodup : below.flatten.Nodup)
    (hnew : ∀ f ∈ last :: before, f ∉ below.flatten) (hdepth : below.length ≤ depth) :
    ((ofEdges edges).allThrough depth (last :: before)).length = (below.map List.length).prod := by
  induction below generalizing layer last before depth with
  | nil =>
    cases depth with
    | zero => rfl
    | succ depth =>
      rw [allThrough, if_pos (onward_eq_nil_of_layered h hlast)]
      rfl
  | cons next below ih =>
    obtain ⟨depth, rfl⟩ := Nat.exists_eq_add_one_of_ne_zero (Nat.ne_zero_of_lt hdepth)
    obtain ⟨hnext, hbelow, hdisjoint⟩ := List.nodup_append'.mp hnodup
    have hnewNext : ∀ f ∈ last :: before, f ∉ next := fun f hf hmem =>
      hnew f hf (List.mem_append_left _ hmem)
    have hperm := onward_perm_of_layered h hlast hnext hnewNext
    have honward := onward_ne_nil_of_layered h hlast (hsome next List.mem_cons_self) hnext hnewNext
    have heach (f : FunctionId) (hf : f ∈ (ofEdges edges).onward (last :: before)) :
        ((ofEdges edges).allThrough depth (f :: last :: before)).length =
          (below.map List.length).prod := by
      have hf := hperm.mem_iff.mp hf
      refine ih h.2 hf (fun l hl => hsome l (List.mem_cons_of_mem _ hl)) hbelow ?_
        (Nat.le_of_succ_le_succ hdepth)
      intro g hg hmem
      rcases List.mem_cons.mp hg with rfl | hg
      · exact hdisjoint hf hmem
      · exact hnew g hg (List.mem_append_right _ hmem)
    rw [allThrough, if_neg honward, List.length_flatMap, List.map_congr_left heach, List.map_const',
      List.sum_replicate_nat, hperm.length_eq, List.map_cons, List.prod_cons]

/-- **Above layers there are as many chains as the product of the numbers of their functions.** -/
theorem length_allFrom_of_layered {depth : Nat} (h : Layered edges ([root] :: next :: below))
    (hsome : ∀ l ∈ next :: below, l ≠ []) (hnodup : ([root] :: next :: below).flatten.Nodup)
    (hdepth : (next :: below).length ≤ depth) :
    ((ofEdges edges).allFrom root depth).length = ((next :: below).map List.length).prod := by
  obtain ⟨depth, rfl⟩ := Nat.exists_eq_add_one_of_ne_zero (Nat.ne_zero_of_lt hdepth)
  rw [List.flatten_cons] at hnodup
  obtain ⟨-, hbelow, hdisjoint⟩ := List.nodup_append'.mp hnodup
  have hnew : ∀ f ∈ [root], f ∉ (next :: below).flatten := fun f hf hmem => hdisjoint hf hmem
  have honward := onward_ne_nil_of_layered h List.mem_cons_self (hsome next List.mem_cons_self)
    (List.nodup_append'.mp hbelow).1 fun f hf hmem => hnew f hf (List.mem_append_left _ hmem)
  rw [← length_allThrough_of_layered h List.mem_cons_self hsome hbelow hnew hdepth, allThrough,
    if_neg honward]
  rfl

end

end CallGraph

/-! ### Calls by name within a package -/

/-- No function of a package is a method, and all that functions call are functions of the package. -/
structure Package.CallsByName (p : Package) : Prop where
  plain : ∀ f ∈ p.functions, f.isMethod = false
  direct : ∀ f ∈ p.functions, ∀ site ∈ f.calls, site.kind = .direct ∧ site.qualifier = none ∧
    ∃ g ∈ p.functions, g.name = site.callee

namespace Package.CallsByName

variable {p : Package} {r : Resolver} {a b : FunctionId}

theorem callKeys_eq (h : p.CallsByName) (hr : r.symbols = .ofPackages [p]) {f : FunctionDecl}
    (hf : f ∈ p.functions) {site : CallSite} (hsite : site ∈ f.calls) :
    r.callKeys ⟨p, f, site⟩ = [⟨⟨p.importPath, none, f.name⟩,
      .resolved ⟨p.importPath, none, site.callee⟩, .direct⟩] := by
  obtain ⟨hkind, hqualifier, g, hg, hname⟩ := h.direct f hf site hsite
  have howner : r.symbols.package? p.importPath = some p := by
    rw [hr, SymbolTable.ofPackages_singleton]
    simp [SymbolTable.package?]
  have hfunction : (p.function? site.callee).isSome = true := by
    rw [Option.isSome_iff_ne_none, Ne, Package.function?_eq_none_iff]
    exact fun hnone => hnone g hg (h.plain g hg) hname
  have hresolve : r.resolve p.importPath site =
      [.found (.resolved ⟨p.importPath, none, site.callee⟩) .direct] := by
    simp only [Resolver.resolve, hkind, Resolver.direct, hqualifier, Option.getD_none, howner,
      hfunction, if_true]
  have hcaller : Call.caller ⟨p, f, site⟩ = ⟨p.importPath, none, f.name⟩ := by
    simp [Call.caller, FunctionId.ofDecl, h.plain f hf]
  rw [Resolver.callKeys, hresolve, hcaller]
  rfl

/-- A package that calls by name makes the calls that are written in it. -/
theorem calls_iff (h : p.CallsByName) (hr : r.symbols = .ofPackages [p]) :
    Calls (resolveCalls r [p]) a b ↔ ∃ f ∈ p.functions, ∃ site ∈ f.calls,
      a = ⟨p.importPath, none, f.name⟩ ∧ b = ⟨p.importPath, none, site.callee⟩ := by
  constructor
  · rintro ⟨e, he, rfl, htarget⟩
    obtain ⟨⟨k, f, site⟩, hc, hkey⟩ := mem_keys_resolveCalls.mp ⟨e, he, rfl⟩
    obtain ⟨hk, hf, hsite⟩ := mem_callsOf.mp hc
    obtain rfl := List.mem_singleton.mp hk
    rw [h.callKeys_eq hr hf hsite, List.mem_singleton] at hkey
    have hsame := congrArg CallKey.target hkey
    exact ⟨f, hf, site, hsite, congrArg CallKey.caller hkey,
      CallTarget.resolved.inj (htarget.symm.trans hsame)⟩
  · rintro ⟨f, hf, site, hsite, rfl, rfl⟩
    have hkey := h.callKeys_eq hr hf hsite
    obtain ⟨e, he, hkey⟩ := mem_keys_resolveCalls.mpr ⟨⟨p, f, site⟩,
      mem_callsOf.mpr ⟨List.mem_singleton_self p, hf, hsite⟩, hkey ▸ List.mem_singleton_self _⟩
    exact ⟨e, he, congrArg CallKey.caller hkey, congrArg CallKey.target hkey⟩

end Package.CallsByName

/-! ### Packages in layers -/

/-- The functions of layers, each with all that it calls. -/
def callLists : List (List String) → List (String × List String)
  | [] => []
  | layer :: below => layer.map (fun name => (name, below.headD [])) ++ callLists below

/-- A program whose functions stand in layers and call all functions of the next layer. -/
def Package.ofLayers (layers : List (List String)) : Package :=
  ⟨"m", "main", "",
    [⟨"main.go", "main", [],
      (callLists layers).map fun (name, callees) =>
        callingFunction name 1 (callees.map fun callee => (callee, 1)),
      [], [], "", 1⟩]⟩

theorem map_fst_callLists (layers : List (List String)) :
    (callLists layers).map Prod.fst = layers.flatten := by
  induction layers with
  | nil => rfl
  | cons layer below ih =>
    rw [callLists, List.map_append, ih, List.map_map, List.flatten_cons]
    exact congrArg (· ++ below.flatten) (List.map_id layer)

theorem mem_flatten_of_mem_callLists {layers : List (List String)} {name callee : String}
    {callees : List String} (h : (name, callees) ∈ callLists layers) (hcallee : callee ∈ callees) :
    callee ∈ layers.flatten := by
  induction layers with
  | nil => cases h
  | cons layer below ih =>
    refine List.mem_append_right layer ?_
    rcases List.mem_append.mp h with h | h
    · obtain ⟨_, -, hpair⟩ := List.mem_map.mp h
      obtain ⟨rfl, rfl⟩ := Prod.mk.inj hpair
      cases below with
      | nil => cases hcallee
      | cons next below => exact List.mem_append_left _ hcallee
    · exact ih h

namespace Package

variable {layers : List (List String)}

theorem mem_functions_ofLayers {f : FunctionDecl} : f ∈ (ofLayers layers).functions ↔
    ∃ name callees, (name, callees) ∈ callLists layers ∧
      callingFunction name 1 (callees.map fun callee => (callee, 1)) = f := by
  simp [functions, ofLayers]

theorem callsByName_ofLayers (layers : List (List String)) : (ofLayers layers).CallsByName := by
  constructor
  · intro f hf
    obtain ⟨name, callees, -, rfl⟩ := mem_functions_ofLayers.mp hf
    rfl
  · intro f hf site hsite
    obtain ⟨name, callees, hmem, rfl⟩ := mem_functions_ofLayers.mp hf
    simp only [callingFunction, List.map_map, List.mem_map, Function.comp_apply] at hsite
    obtain ⟨callee, hcallee, rfl⟩ := hsite
    have hlisted := mem_flatten_of_mem_callLists hmem hcallee
    rw [← map_fst_callLists] at hlisted
    obtain ⟨⟨_, below⟩, hbelow, rfl⟩ := List.mem_map.mp hlisted
    exact ⟨rfl, rfl, _, mem_functions_ofLayers.mpr ⟨_, below, hbelow, rfl⟩, rfl⟩

/-- The function of a name. -/
def layerFunction (name : String) : FunctionId := ⟨"m", none, name⟩

theorem calls_ofLayers {r : Resolver} (hr : r.symbols = .ofPackages [ofLayers layers])
    (hnodup : layers.flatten.Nodup) {name : String} {callees : List String}
    (hmem : (name, callees) ∈ callLists layers) (g : FunctionId) :
    Calls (resolveCalls r [ofLayers layers]) (layerFunction name) g ↔
      g ∈ callees.map layerFunction := by
  rw [(callsByName_ofLayers layers).calls_iff hr, List.mem_map]
  constructor
  · rintro ⟨f, hf, site, hsite, hname, rfl⟩
    obtain ⟨name', callees', hmem', rfl⟩ := mem_functions_ofLayers.mp hf
    obtain rfl : name = name' := congrArg FunctionId.name hname
    rw [← map_fst_callLists] at hnodup
    obtain rfl : callees = callees' := congrArg Prod.snd
      (List.inj_on_of_nodup_map hnodup hmem hmem' rfl)
    simp only [callingFunction, List.map_map, List.mem_map, Function.comp_apply] at hsite
    obtain ⟨callee, hcallee, rfl⟩ := hsite
    exact ⟨callee, hcallee, rfl⟩
  · rintro ⟨callee, hcallee, rfl⟩
    refine ⟨_, mem_functions_ofLayers.mpr ⟨name, callees, hmem, rfl⟩,
      ⟨callee, none, none, .direct, 1⟩, ?_, rfl, rfl⟩
    simp only [callingFunction, List.map_map, List.mem_map, Function.comp_apply]
    exact ⟨callee, hcallee, rfl⟩

/-- By induction on the layers from one on, all of which are layers of the program. -/
theorem layered_ofLayers {r : Resolver} (hr : r.symbols = .ofPackages [ofLayers layers])
    (hnodup : layers.flatten.Nodup) {rest : List (List String)}
    (hrest : callLists rest ⊆ callLists layers) :
    Layered (resolveCalls r [ofLayers layers]) (rest.map (List.map layerFunction)) := by
  induction rest with
  | nil => trivial
  | cons layer below ih =>
    refine ⟨fun f hf g => ?_, ih fun x hx => hrest (List.mem_append_right _ hx)⟩
    obtain ⟨name, hname, rfl⟩ := List.mem_map.mp hf
    have hmem : (name, below.headD []) ∈ callLists layers :=
      hrest (List.mem_append_left _ (List.mem_map.mpr ⟨name, hname, rfl⟩))
    rw [calls_ofLayers hr hnodup hmem]
    cases below <;> rfl

end Package

end CodeGraph

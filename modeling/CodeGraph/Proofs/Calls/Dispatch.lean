import CodeGraph.Proofs.Calls.Sites
import CodeGraph.Proofs.Names.Implementation

/-!
# Calls through interfaces

* `CallSite.Through` — a call of a method on a receiver of an interface type.
* `SymbolTable.Serves` — a function is what an implementation of an interface has for a method.
* `Resolver.callKeys_through` — the edges that a call through an interface makes.
* `map_key_filter_resolveCalls` — where a call has its edges in order, they are all found again.
* `Report.dispatch_reaches_implementations` — the main result.
-/

namespace CodeGraph

/-- A call of a method on a receiver whose type is an interface of the project. -/
structure CallSite.Through (ps : List Package) (package : String) (site : CallSite) (i : TypeId) :
    Prop where
  kind : site.kind = .method ∨ site.kind = .interfaceDispatch
  receiver : site.receiverType = some i.name
  owner : site.qualifier.getD package = i.package
  interface : ∃ k ∈ ps, k.importPath = i.package ∧ (k.interface? i.name).isSome

/-! ### What implementations have -/

namespace SymbolTable

variable {ps : List Package} {i : TypeId} {m : String} {f : FunctionId}

/-- A function is what some implementation of an interface has for a method. -/
def Serves (t : SymbolTable) (implementations : List Implementation) (i : TypeId) (m : String)
    (f : FunctionId) : Prop :=
  ∃ x ∈ implementations, x.interface = i ∧
    ∃ e, methodNamed? (t.structMethods x.struct) m = some e ∧ e.function = some f

/-- What serves for a method is a declared method of that name. -/
theorem Serves.method (h : (ofPackages ps).Serves (ofPackages ps).implementations i m f) :
    Declared ps f ∧ f.receiver.isSome ∧ f.name = m := by
  obtain ⟨x, hx, -, e, he, hf⟩ := h
  have hstruct : ((ofPackages ps).struct? x.struct).isSome :=
    isSome_of_mem_typesOfForm (mem_implementations.mp hx).2.1
  obtain ⟨steps, -, hoffers, -⟩ := (methodNamed?_structMethods_iff hstruct).mp he
  obtain ⟨last, -, -, rfl⟩ := hoffers.declared_at hf
  exact ⟨declared_structMethods (Option.bind_eq_some_iff.mpr ⟨e, he, hf⟩), rfl, rfl⟩

/-- An implementation has every method that its interface asks for. -/
theorem exists_entry_of_mem_implementations {t : SymbolTable} {x : Implementation}
    (hx : x ∈ t.implementations) {required : List MethodSignature}
    (hrequired : t.interfaceMethods x.interface = .ok required) {asked : MethodSignature}
    (hasked : asked ∈ required) : ∃ e, methodNamed? (t.structMethods x.struct) asked.name = some e ∧
      signaturesMatch asked e.signature := by
  obtain ⟨-, -, required', hrequired', -, hcovers⟩ := mem_implementations.mp hx
  obtain rfl := Except.ok.inj (hrequired.symm.trans hrequired')
  exact (Implementation.covers?_eq_some.mp hcovers).1 asked hasked

end SymbolTable

/-! ### The edges of a call through an interface -/

/-- The key of an edge from a function to one that serves for a method. -/
def dispatchKey (caller f : FunctionId) : CallKey := ⟨caller, .resolved f, .interfaceDispatch⟩

theorem precedes_dispatchKey (caller : FunctionId) {f g : FunctionId} (h : Precedes f g) :
    Precedes (dispatchKey caller f) (dispatchKey caller g) := by
  have htarget : compare (CallTarget.resolved f) (CallTarget.resolved g) = .lt := h
  show (compare caller caller).then _ = .lt
  rw [Std.ReflOrd.compare_self, Ordering.eq_then, dispatchKey, dispatchKey, htarget, Ordering.lt_then]

namespace Resolver

variable {r : Resolver} {ps : List Package} {i : TypeId}

theorem mem_dispatchTargets {m : String} {f : FunctionId} :
    f ∈ r.dispatchTargets i m ↔ r.symbols.Serves r.implementations i m f := by
  rw [dispatchTargets, mem_sortedDistinct, List.mem_filterMap]
  simp only [List.mem_filter, decide_eq_true_eq, Option.bind_eq_some_iff, and_assoc,
    SymbolTable.Serves]

/-- A call of a method on a receiver of an interface type goes through the interface. -/
theorem resolve_through (hr : r.symbols = .ofPackages ps) (hpaths : (ps.map (·.importPath)).Nodup)
    {package : String} {site : CallSite} (h : site.Through ps package i) :
    r.resolve package site = r.throughInterface i site.callee := by
  obtain ⟨k, hk, hpath, hinterface⟩ := h.interface
  have hpackage : r.symbols.package? i.package = some k :=
    hr ▸ (SymbolTable.package?_eq_some hpaths).mpr ⟨hk, hpath⟩
  have htyped : r.typedMethod i.package i.name site.callee = r.throughInterface i site.callee := by
    rw [typedMethod, hpackage]
    exact if_pos hinterface
  rw [resolve, h.receiver, h.owner]
  rcases h.kind with hkind | hkind <;> rw [hkind] <;> exact htyped

/-- A call through an interface has one edge for everything that serves for the method, or one that says
that nothing does. -/
theorem callKeys_through (hr : r.symbols = .ofPackages ps) (hpaths : (ps.map (·.importPath)).Nodup)
    (hdispatch : r.dispatch = true) {c : Call} (h : c.site.Through ps c.package.importPath i) :
    r.callKeys c = if r.dispatchTargets i c.site.callee = [] then
        [⟨c.caller, .unresolved c.site.callee (UnresolvedReason.noImplementation i c.site.callee).message,
          .interfaceDispatch⟩]
      else (r.dispatchTargets i c.site.callee).map (dispatchKey c.caller) := by
  rw [callKeys, resolve_through hr hpaths h, throughInterface, hdispatch]
  simp only [Bool.not_true, Bool.false_eq_true, if_false]
  split
  next hnone => simp [hnone, Resolution.missing]
  next hsome =>
    rw [if_neg hsome, List.map_map]
    rfl

end Resolver

/-- Where a call has its edges in order, they are all found again. -/
theorem map_key_filter_resolveCalls {r : Resolver} {ps : List Package} {c : Call}
    (hc : c ∈ callsOf ps) (h : (r.callKeys c).Pairwise Precedes) :
    ((resolveCalls r ps).filter fun e => e.key ∈ r.callKeys c).map CallEdge.key = r.callKeys c := by
  refine List.Pairwise.eq_of_mem_iff ?_ h fun key => ?_
  · exact List.pairwise_map.mpr ((pairwise_resolveCalls r ps).filter _)
  · simp only [List.mem_map, List.mem_filter, decide_eq_true_eq]
    constructor
    · rintro ⟨e, ⟨-, he⟩, rfl⟩
      exact he
    · intro hkey
      obtain ⟨e, he, rfl⟩ := mem_keys_resolveCalls.mpr ⟨c, hc, hkey⟩
      exact ⟨e, ⟨he, hkey⟩, rfl⟩

/-- **A call through an interface reaches every implementation.**  Where import paths are distinct and
dispatch is resolved, a call of a method on a receiver of an interface type has one edge for every
method that a struct reported as an implementation has under that name, and one edge that says so if
there is none.  If the interface asks for the method, then every implementation has one that matches,
and there is an edge to it unless it comes from an embedded interface. -/
theorem Report.dispatch_reaches_implementations {settings : AnalysisSettings} {p : Project}
    {signal : Signal} {report : Report}
    (hreport : (Report.ofProject settings p).outcome signal = .ok report)
    (hpaths : (p.packages.map (·.importPath)).Nodup) (hdispatch : settings.dispatch = true) {c : Call}
    (hc : c ∈ callsOf p.packages) {i : TypeId}
    (hsite : c.site.Through p.packages c.package.importPath i) :
    let t := SymbolTable.ofProject p
    let r : Resolver := ⟨t, report.implementations, settings.dispatch⟩
    (∃ targets : List FunctionId, targets.Nodup ∧
      (∀ f, f ∈ targets ↔ t.Serves report.implementations i c.site.callee f) ∧
      (∀ f ∈ targets, Declared p.packages f ∧ f.receiver.isSome ∧ f.name = c.site.callee) ∧
      (report.calls.filter fun e => e.key ∈ r.callKeys c).map CallEdge.key =
        if targets = [] then
          [⟨c.caller, .unresolved c.site.callee
            (UnresolvedReason.noImplementation i c.site.callee).message, .interfaceDispatch⟩]
        else targets.map fun f => ⟨c.caller, .resolved f, .interfaceDispatch⟩) ∧
    ∀ required, t.interfaceMethods i = .ok required →
      ∀ asked ∈ required, asked.name = c.site.callee →
        ∀ x ∈ report.implementations, x.interface = i →
          ∃ e, methodNamed? (t.structMethods x.struct) c.site.callee = some e ∧
            signaturesMatch asked e.signature ∧ ∀ f, e.function = some f →
              ∃ edge ∈ report.calls, edge.key = ⟨c.caller, .resolved f, .interfaceDispatch⟩ := by
  intro t r
  have himplementations : report.implementations = t.implementations := by
    rw [Report.ofProject_eq_ok hreport]
    rfl
  have hcalls : report.calls = resolveCalls r p.packages := Report.calls_eq hreport
  have hkeys := Resolver.callKeys_through (r := r) rfl hpaths hdispatch hsite
  have hserves (f : FunctionId) : f ∈ r.dispatchTargets i c.site.callee ↔
      t.Serves report.implementations i c.site.callee f := Resolver.mem_dispatchTargets
  have hordered : (r.callKeys c).Pairwise Precedes := by
    rw [hkeys]
    split
    next => exact List.pairwise_singleton _ _
    next =>
      exact (pairwise_sortedDistinct _).map _ fun f g => precedes_dispatchKey c.caller
  refine ⟨⟨r.dispatchTargets i c.site.callee, nodup_sortedDistinct _, hserves, fun f hf => ?_, ?_⟩, ?_⟩
  · have hmethod := (hserves f).mp hf
    rw [himplementations] at hmethod
    exact hmethod.method
  · rw [hcalls, map_key_filter_resolveCalls hc hordered, hkeys]
    rfl
  · intro required hrequired asked hasked hname x hx hinterface
    rw [himplementations] at hx
    obtain ⟨e, he, hmatch⟩ :=
      SymbolTable.exists_entry_of_mem_implementations hx (hinterface ▸ hrequired) hasked
    refine ⟨e, hname ▸ he, hmatch, fun f hf => ?_⟩
    have hf : f ∈ r.dispatchTargets i c.site.callee :=
      (hserves f).mpr ⟨x, himplementations ▸ hx, hinterface, e, hname ▸ he, hf⟩
    rw [hcalls]
    refine mem_keys_resolveCalls.mpr ⟨c, hc, ?_⟩
    rw [hkeys, if_neg (List.ne_nil_of_mem hf)]
    exact List.mem_map.mpr ⟨f, hf, rfl⟩

/-- A function that notifies whatever it is given. -/
def sending : FunctionDecl :=
  ⟨"send", "func send(n Notifier)", "", false, ["Notifier"], [], .unexported, ⟨16, 18⟩, 1,
    [⟨"Notify", none, some "Notifier", .method, 17⟩]⟩

/-- `Email` is notified itself, and `Sms` by way of the `Email` that it embeds. -/
def notices : Package :=
  ⟨".", "p", "",
    [⟨"p.go", "p", [], [SymbolTable.plainMethod "Email" "Notify" false 10, sending],
      [⟨"Notifier", .interface, .exported, ⟨3, 5⟩, [], [⟨"Notify", [], []⟩], []⟩,
        SymbolTable.embeddingStruct "Email" 7 [], SymbolTable.embeddingStruct "Sms" 12 ["Email"]],
      [], "", 18⟩]⟩

/-- The method by which both are notified. -/
def notified : MethodEntry := ⟨some ⟨".", some "Email", "Notify"⟩, ⟨"Notify", [], []⟩, false⟩

namespace SymbolTable

theorem methodNamed?_notices : ∀ name ∈ ["Email", "Sms"],
    methodNamed? (structMethods ⟨[notices]⟩ ⟨".", name⟩) "Notify" = some notified := by
  have hstruct : ∀ name ∈ ["Email", "Sms"], (struct? ⟨[notices]⟩ ⟨".", name⟩).isSome := by
    decide
  have hnotify : Offers ⟨[notices]⟩ ⟨".", "Email"⟩ "Notify" [] notified :=
    (offers_nil_struct (hstruct _ (by decide))).mpr (by decide)
  have hnone (e : MethodEntry) : ¬Offers ⟨[notices]⟩ ⟨".", "Sms"⟩ "Notify" [] e :=
    not_offers_nil (hstruct _ (by decide)) (by decide) e
  have hfields : embedded ⟨[notices]⟩ ⟨".", "Sms"⟩ =
      [(⟨"Email", "Email", .exported, true, 13⟩, ⟨".", "Email"⟩)] := by decide
  intro name hname
  rw [methodNamed?_structMethods_iff (hstruct name hname), ← firstBelow_start]
  rcases List.mem_pair.mp hname with rfl | rfl
  · exact firstBelow_here hnotify List.not_mem_nil
  · have hfirst := (firstBelow_here hnotify (by decide)).down List.not_mem_nil hnone
      (congrArg (·[0]?) hfields) fun u hu => nomatch hu
    exact (show promote ⟨"Email", "Email", .exported, true, 13⟩ notified = notified by
      decide) ▸ hfirst

theorem implementations_notices : ∀ name ∈ ["Email", "Sms"],
    ⟨⟨".", "Notifier"⟩, ⟨".", name⟩, false⟩ ∈ implementations ⟨[notices]⟩ := by
  have hasked : interfaceMethods ⟨[notices]⟩ ⟨".", "Notifier"⟩ = .ok [⟨"Notify", [], []⟩] :=
    interfaceMethods_singleton (by decide)
  have hinterface : ⟨".", "Notifier"⟩ ∈ interfaces ⟨[notices]⟩ := mem_typesOfForm (by decide)
  have hstruct : ∀ name ∈ ["Email", "Sms"], (struct? ⟨[notices]⟩ ⟨".", name⟩).isSome := by
    decide
  intro name hname
  refine mem_implementations.mpr ⟨hinterface, mem_typesOfForm (hstruct name hname), _, hasked,
    List.cons_ne_nil _ _, ?_⟩
  rw [Implementation.covers?_eq_some, Implementation.Covers, List.forall_mem_singleton]
  refine ⟨⟨_, methodNamed?_notices name hname, by decide⟩, iff_of_false Bool.false_ne_true ?_⟩
  rintro ⟨m, hm, e, he, hpointer⟩
  obtain rfl := List.mem_singleton.mp hm
  obtain rfl := Option.some.inj ((methodNamed?_notices name hname).symm.trans he)
  cases hpointer

theorem structs_notices {k : TypeId} (h : k ∈ structs ⟨[notices]⟩) :
    ∃ name ∈ ["Email", "Sms"], k = ⟨".", name⟩ := by
  have hnames : ∀ n ∈ notices.types.map (·.1.name), (notices.typeOfForm? .struct n).isSome →
      n ∈ ["Email", "Sms"] := by decide
  obtain ⟨p, hp, hk⟩ := List.mem_flatMap.mp h
  obtain rfl := List.mem_singleton.mp hp
  obtain ⟨n, hn, rfl⟩ := List.mem_map.mp hk
  rw [Package.namesOfForm, mem_sortedDistinct, List.mem_filter] at hn
  exact ⟨n, hnames n hn.1 hn.2, rfl⟩

end SymbolTable

/-- Both structs have the same method, and there is one edge to it. -/
theorem dispatch_reaches_notices :
    let p : Project := ⟨"/p", none, [notices], []⟩
    let report := Report.found {} p
    let r : Resolver := ⟨.ofProject p, report.implementations, true⟩
    let notify : FunctionId := ⟨".", some "Email", "Notify"⟩
    let c : Call := ⟨notices, sending, ⟨"Notify", none, some "Notifier", .method, 17⟩⟩
    (Report.ofProject {} p).outcome .never = .ok report ∧ (p.packages.map (·.importPath)).Nodup ∧
      (∀ name ∈ ["Email", "Sms"],
        ⟨⟨".", "Notifier"⟩, ⟨".", name⟩, false⟩ ∈ report.implementations) ∧
      callsOf p.packages = [c] ∧ c.site.Through p.packages c.package.importPath ⟨".", "Notifier"⟩ ∧
      (report.calls.filter fun e => e.key ∈ r.callKeys c).map CallEdge.key =
        [⟨⟨".", none, "send"⟩, .resolved notify, .interfaceDispatch⟩] := by
  intro p report r notify c
  have hreport : (Report.ofProject {} p).outcome .never = .ok report :=
    Report.ofProject_never p (by decide)
  have hpaths : (p.packages.map (·.importPath)).Nodup := by decide
  have htable : SymbolTable.ofProject p = ⟨[notices]⟩ := SymbolTable.ofPackages_singleton notices
  have himplementations : report.implementations = SymbolTable.implementations ⟨[notices]⟩ :=
    congrArg SymbolTable.implementations htable
  have hsite : c.site.Through p.packages c.package.importPath ⟨".", "Notifier"⟩ :=
    ⟨Or.inl rfl, rfl, rfl, notices, List.mem_singleton_self _, rfl, by decide⟩
  obtain ⟨⟨targets, hnodup, hserves, -, hedges⟩, -⟩ :=
    Report.dispatch_reaches_implementations hreport hpaths rfl (List.mem_singleton_self c) hsite
  have hnotify (f : FunctionId) : f ∈ targets ↔ f ∈ [notify] := by
    rw [hserves, htable, himplementations, List.mem_singleton]
    constructor
    · rintro ⟨x, hx, -, e, he, hf⟩
      obtain ⟨name, hname, hstruct⟩ :=
        SymbolTable.structs_notices (SymbolTable.mem_implementations.mp hx).2.1
      rw [hstruct, SymbolTable.methodNamed?_notices name hname] at he
      obtain rfl := Option.some.inj he
      exact (Option.some.inj hf).symm
    · rintro rfl
      exact ⟨_, SymbolTable.implementations_notices "Email" (by decide), rfl, _,
        SymbolTable.methodNamed?_notices "Email" (by decide), rfl⟩
  have htargets : targets = [notify] := List.perm_singleton.mp
    ((List.perm_ext_iff_of_nodup hnodup (List.nodup_singleton notify)).mpr hnotify)
  refine ⟨hreport, hpaths, himplementations ▸ SymbolTable.implementations_notices, rfl, hsite, ?_⟩
  rw [htargets] at hedges
  exact hedges

end CodeGraph

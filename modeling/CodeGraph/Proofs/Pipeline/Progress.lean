import CodeGraph.Proofs.Graph.Identity
import CodeGraph.Proofs.Names.Declared
import CodeGraph.Proofs.Pipeline.Events
import Mathlib.Algebra.Order.Field.Basic
import Mathlib.Algebra.Order.Field.Rat
import Mathlib.Data.List.Nodup
import Mathlib.Tactic.NormNum
import Mathlib.Tactic.Positivity

/-!
# What a run tells of its progress

* `length_announced` — how many reports are due on so many files.
* `Advances` — events that go through all phases in their order and bring each to its end.
* `advances_events` — the events of the stages are such events.
* `Session.pipeline_progress` — so are those of a run that ends well, and those of the files are few.
-/

namespace CodeGraph

/-! ### How many files are announced -/

/-- The last file is always announced, and others at every step. -/
theorem announced_succ (n : Nat) :
    announced (n + 1) =
      (List.range' 1 n).filter (fun k => k % max 1 ((n + 1) / 10) = 0) ++ [n + 1] := by
  have hlast : announces (n + 1) (1 + n) = true := by simp [announces, Nat.add_comm]
  rw [announced, List.range'_1_concat, List.filter_append, List.filter_cons_of_pos hlast,
    List.filter_nil, Nat.add_comm 1 n]
  congr 1
  apply List.filter_congr
  intro k hk
  have hne : k ≠ n + 1 := by
    have hbound := List.mem_range'_1.mp hk
    omega
  simp [announces, hne]

theorem length_filter_multiples (d n : Nat) :
    ((List.range' 1 n).filter (fun k => k % d = 0)).length = n / d := by
  induction n with
  | zero => simp
  | succ n ih =>
    rw [List.range'_1_concat, List.filter_append, List.length_append, ih, Nat.succ_div,
      Nat.add_comm 1 n]
    by_cases hd : d ∣ n + 1
    · rw [if_pos hd, List.filter_cons_of_pos (by simpa using Nat.mod_eq_zero_of_dvd hd)]
      rfl
    · have hmod : ¬ (n + 1) % d = 0 := fun h => hd (Nat.dvd_of_mod_eq_zero h)
      rw [if_neg hd, List.filter_cons_of_neg (by simpa using hmod)]
      rfl

/-- How many reports are due on files. -/
theorem length_announced (n : Nat) :
    (announced (n + 1)).length = n / max 1 ((n + 1) / 10) + 1 := by
  rw [announced_succ, List.length_append, length_filter_multiples, List.length_singleton]

theorem length_announced_le (n : Nat) : (announced n).length ≤ 19 := by
  cases n with
  | zero => decide
  | succ n =>
    rw [length_announced]
    have hquotient : n / max 1 ((n + 1) / 10) ≤ 18 := by
      apply Nat.div_le_of_le_mul
      omega
    omega

theorem pairwise_announced (n : Nat) : (announced n).Pairwise (· < ·) :=
  List.Pairwise.filter _ (List.pairwise_lt_range' 1)

theorem mem_announced {n k : Nat} (h : k ∈ announced n) : 1 ≤ k ∧ k ≤ n := by
  have hbound := List.mem_range'_1.mp (List.mem_filter.mp h).1
  omega

theorem getLast?_announced {n : Nat} (h : 1 ≤ n) : (announced n).getLast? = some n := by
  obtain ⟨m, rfl⟩ := Nat.exists_eq_add_of_le' h
  rw [announced_succ, List.getLast?_append, List.getLast?_singleton]
  rfl

theorem count_announced {n : Nat} (h : 1 ≤ n) : (announced n).count n = 1 :=
  List.count_eq_one_of_mem ((pairwise_announced n).imp Nat.ne_of_lt)
    (List.mem_of_getLast? (getLast?_announced h))

/-! ### Events that advance -/

/-- The place of a phase in a run. -/
def Phase.rank : Phase → Nat
  | .parse => 0
  | .analyze => 1
  | .build => 2
  | .persist => 3

/-- How much of its phase is done at an event. -/
def Event.share (e : Event) : ℚ := e.fraction.numerator / e.fraction.denominator

/-- Events that go through the phases in their order, and through each of them to its end. -/
structure Advances (events : List Event) : Prop where
  /-- No phase is gone back to. -/
  phases : events.Pairwise fun e e' => e.phase.rank ≤ e'.phase.rank
  /-- Within a phase nothing that was done gets lost. -/
  shares : events.Pairwise fun e e' => e.phase = e'.phase → e.share ≤ e'.share
  bounds : ∀ e ∈ events, 0 ≤ e.share ∧ e.share ≤ 1
  /-- The last event of every phase says that all of it is done. -/
  ends : ∀ phase, ∃ e, (events.filter (·.phase = phase)).getLast? = some e ∧ e.share = 1

section Advances

variable {n : Nat}

theorem phase_of_mem_parseEvents {e : Event} (h : e ∈ parseEvents n) : e.phase = .parse := by
  rcases List.mem_cons.mp h with rfl | h
  · rfl
  · obtain ⟨k, -, rfl⟩ := List.mem_map.mp h
    rfl

theorem filter_parseEvents (n : Nat) : (parseEvents n).filter (·.phase = .parse) = parseEvents n :=
  List.filter_eq_self.mpr fun _ he => decide_eq_true (phase_of_mem_parseEvents he)

theorem share_of_whole {e : Event} (h : e.fraction = ⟨1, 1⟩) : e.share = 1 := by
  simp [Event.share, h]

theorem share_startEvent (n : Nat) : (startEvent n).share = 0 := by simp [startEvent, Event.share]

theorem share_parsedEvent (h : 1 ≤ n) (k : Nat) : (parsedEvent n k).share = k / n := by
  simp [parsedEvent, Event.share, Nat.max_eq_right h]

theorem bounds_parseEvents (h : 1 ≤ n) : ∀ e ∈ parseEvents n, 0 ≤ e.share ∧ e.share ≤ 1 := by
  intro e he
  rcases List.mem_cons.mp he with rfl | he
  · rw [share_startEvent]
    norm_num
  · obtain ⟨k, hk, rfl⟩ := List.mem_map.mp he
    have hn : (0 : ℚ) < n := by exact_mod_cast h
    have hle : (k : ℚ) ≤ n := by exact_mod_cast (mem_announced hk).2
    rw [share_parsedEvent h]
    exact ⟨by positivity, (div_le_one hn).mpr hle⟩

theorem pairwise_share_parseEvents (h : 1 ≤ n) :
    (parseEvents n).Pairwise fun e e' => e.share ≤ e'.share := by
  apply List.pairwise_cons.mpr
  constructor
  · intro e he
    rw [share_startEvent]
    exact (bounds_parseEvents h e (List.mem_cons_of_mem _ he)).1
  · refine List.pairwise_map.mpr ((pairwise_announced n).imp ?_)
    intro k k' hlt
    rw [share_parsedEvent h, share_parsedEvent h]
    gcongr

/-- After the files come events of other phases. -/
theorem rank_pos_of_later (a : Analysis) (f : ImportFigures) :
    ∀ e ∈ a.events ++ f.events, 0 < e.phase.rank := by
  simp [Analysis.events, ImportFigures.events, Phase.rank]

theorem bounds_later (a : Analysis) (f : ImportFigures) :
    ∀ e ∈ a.events ++ f.events, 0 ≤ e.share ∧ e.share ≤ 1 := by
  simp [Analysis.events, ImportFigures.events, Event.share]
  norm_num

theorem pairwise_later (a : Analysis) (f : ImportFigures) :
    (a.events ++ f.events).Pairwise fun e e' =>
      e.phase.rank ≤ e'.phase.rank ∧ (e.phase = e'.phase → e.share ≤ e'.share) := by
  simp [Analysis.events, ImportFigures.events, Phase.rank, Event.share]
  norm_num

/-- The files are done with the last of them. -/
theorem ends_parseEvents (h : 1 ≤ n) :
    (parseEvents n).getLast? = some (parsedEvent n n) ∧ (parsedEvent n n).share = 1 := by
  have hn : (n : ℚ) ≠ 0 := by exact_mod_cast Nat.one_le_iff_ne_zero.mp h
  constructor
  · rw [parseEvents, List.getLast?_cons, List.getLast?_map, getLast?_announced h]
    rfl
  · rw [share_parsedEvent h, div_self hn]

/-- **The events of a run advance** from the first file to the end of the import. -/
theorem advances_events (h : 1 ≤ n) (a : Analysis) (f : ImportFigures) :
    Advances (parseEvents n ++ (a.events ++ f.events)) where
  phases := by
    refine List.pairwise_append.mpr ⟨?_, (pairwise_later a f).imp And.left, ?_⟩
    · refine List.Pairwise.imp_of_mem ?_ (pairwise_share_parseEvents h)
      intro e e' he he' _
      rw [phase_of_mem_parseEvents he, phase_of_mem_parseEvents he']
    · intro e he e' _
      rw [phase_of_mem_parseEvents he]
      exact Nat.zero_le _
  shares := by
    refine List.pairwise_append.mpr ⟨?_, (pairwise_later a f).imp And.right, ?_⟩
    · refine (pairwise_share_parseEvents h).imp ?_
      intro e e' hle _
      exact hle
    · intro e he e' he' hphase
      have hpos := rank_pos_of_later a f e' he'
      rw [← hphase, phase_of_mem_parseEvents he] at hpos
      exact absurd hpos (Nat.lt_irrefl 0)
  bounds := by
    intro e he
    rcases List.mem_append.mp he with he | he
    · exact bounds_parseEvents h e he
    · exact bounds_later a f e he
  ends := by
    intro phase
    have hother : phase ≠ .parse → (parseEvents n).filter (·.phase = phase) = [] := by
      intro hne
      refine List.filter_eq_nil_iff.mpr fun e he => ?_
      rw [phase_of_mem_parseEvents he]
      simpa using hne.symm
    rw [List.filter_append]
    cases phase with
    | parse =>
      have hlater : (a.events ++ f.events).filter (·.phase = .parse) = [] := rfl
      obtain ⟨hlast, hshare⟩ := ends_parseEvents h
      refine ⟨parsedEvent n n, ?_, hshare⟩
      rw [hlater, filter_parseEvents, List.append_nil, hlast]
    | analyze =>
      rw [hother (by decide)]
      exact ⟨_, rfl, share_of_whole rfl⟩
    | build =>
      rw [hother (by decide)]
      exact ⟨_, rfl, share_of_whole rfl⟩
    | persist =>
      rw [hother (by decide)]
      exact ⟨_, rfl, share_of_whole rfl⟩

end Advances

/-- **What a run that ends well tells of its progress.** It has found at least one file.  The phases
come in their order; within each the share that is done lies between nothing and all, never falls
and ends with all.  Of the files there are at most twenty events: the first says how many there are,
and the others announce more and more of them, all of them once and last. -/
theorem Session.pipeline_progress {size : Nat} {around : Surroundings} {j : Job} {store : Store}
    {a : Analysis} {f : ImportFigures}
    (h : ((pipeline size j).performIn around store).outcome = .ok (a, f)) :
    ∃ place found, rootPlace j.tree j.path = .ok place ∧
      discoverAt Languages.standard j.settings.reading j.tree (placeText place) = .ok found ∧
      let n := found.sources.length
      let events := ((pipeline size j).performIn around store).events
      1 ≤ n ∧ Advances events ∧
        events.filter (·.phase = .parse) = startEvent n :: (announced n).map (parsedEvent n) ∧
        (events.filter (·.phase = .parse)).length ≤ 20 ∧
        (announced n).Pairwise (· < ·) ∧ (announced n).getLast? = some n ∧
        (announced n).count n = 1 := by
  obtain ⟨place, found, hplace, hfound, hsome, hevents⟩ := pipeline_events h
  have hlater : (a.events ++ f.events).filter (·.phase = .parse) = [] := rfl
  refine ⟨place, found, hplace, hfound, ?_⟩
  intro n events
  have hparse : events.filter (·.phase = .parse) = parseEvents n := by
    show (((pipeline size j).performIn around store).events).filter _ = _
    rw [hevents, List.filter_append, filter_parseEvents, hlater, List.append_nil]
  refine ⟨hsome, ?_, hparse, ?_, pairwise_announced n, getLast?_announced hsome,
    count_announced hsome⟩
  · show Advances ((pipeline size j).performIn around store).events
    rw [hevents]
    exact advances_events hsome a f
  · rw [hparse, parseEvents, List.length_cons, List.length_map]
    exact Nat.succ_le_succ (length_announced_le n)

/-! ### A run on one file -/

def soloTree : FileTree := .folder [("p", .folder [("a.go", .file (Text.Utf8.encode "package a\n"))])]

def soloFile : SourceFile :=
  { path := "a.go", package := "a", imports := [], functions := [], types := [], values := []
    contentHash := "7b39baa38a2ec2b8d111bbbd8e448e80226477ab40105d9d2123d4dc18067438"
    lineCount := 1 }

def soloPackage : Package := ⟨".", "a", "", [soloFile]⟩

def soloJob : Job :=
  ⟨"demo", soloTree, "/p", { reading := { workers := 1 } }, [], ⟨1970, 1, 1, 0, 0, 0, 0⟩⟩

theorem discoverAt_solo :
    discoverAt Languages.standard soloJob.settings.reading soloTree (placeText ["p"]) =
      .ok ⟨[(["a.go"], .ok (Text.Utf8.encode "package a\n"))], []⟩ := by
  rw [placeText_child]
  exact discoverAt_openChild rfl (by decide +kernel) (List.pairwise_singleton _ _) (by decide +kernel)

theorem exists_read_solo : ∃ p, (Project.read Languages.standard soloJob.settings.reading soloTree
    "/p").outcome .never = .ok p ∧ p.packages = [soloPackage] := by
  have hfile : readSource Languages.standard (["a.go"], .ok (Text.Utf8.encode "package a\n")) =
      .ok soloFile := by
    decide +kernel
  obtain ⟨p, hread, hpackages⟩ := Project.exists_read_source Languages.standard
    soloJob.settings.reading soloTree (["a.go"], .ok (Text.Utf8.encode "package a\n")) rfl (by decide) rfl
    (by decide +kernel) hfile (by decide)
  refine ⟨p, hread, hpackages.trans ?_⟩
  decide +kernel

theorem found_solo {p : Project} (h : p.packages = [soloPackage]) :
    let r := Report.found {} p
    r.dependencies.edges = [] ∧ r.implementations = [] ∧ r.calls = [] := by
  intro r
  have hsymbols : SymbolTable.ofProject p = ⟨[soloPackage]⟩ := by
    rw [SymbolTable.ofProject, h, SymbolTable.ofPackages_singleton]
  refine ⟨?_, ?_, ?_⟩
  · have hnone : (Dependencies.ofPackages [soloPackage]).edges = [] := by
      simp [Dependencies.ofPackages, Dependencies.edgesOf, Dependencies.filesOf, Dependencies.importsOf,
        soloPackage, soloFile, sortedDistinct, sortedBy, firstOfEach, skipRepeats]
    show ((Dependencies.ofPackages p.packages).mark _).edges = []
    rw [h, (Dependencies.sound_ofPackages _).mark_eq, hnone, List.map_nil]
  · show (SymbolTable.ofProject p).implementations = []
    have hnone : soloPackage.namesOfForm .interface = [] := by
      simp [Package.namesOfForm, Package.types, soloPackage, soloFile, sortedDistinct, sortedBy,
        firstOfEach]
    rw [hsymbols, SymbolTable.implementations, SymbolTable.interfaces, SymbolTable.typesOfForm,
      List.flatMap_singleton, hnone]
    rfl
  · show resolveCalls _ p.packages = []
    rw [h]
    show firstOfEach CallEdge.key (sortedBy CallEdge.key []) = []
    rw [sortedBy, List.mergeSort_nil]
    rfl

theorem importable_solo {p : Project} (h : p.packages = [soloPackage]) :
    (soloJob.analysis p).graph.Importable Store.blank.rows := by
  obtain ⟨hedges, himplementations, hcalls⟩ := found_solo h
  obtain ⟨root, module, packages, issues⟩ := p
  obtain rfl : packages = [soloPackage] := h
  let d : Directory := ⟨"demo", ⟨root, module, [soloPackage], issues⟩,
    Report.found {} ⟨root, module, [soloPackage], issues⟩⟩
  have hlinks : (d.links (.drawn [])).length = 2 := by
    simp only [d, Directory.links, Directory.dependencyLinks, hedges, Directory.implementationLinks,
      himplementations, hcalls]
    rfl
  have hnodes : (Graph.ofReport (.drawn []) soloJob.now "demo" d.project d.report).nodes.map (·.id) =
      d.drafts.map (Identities.drawn []).node := Graph.map_id_nodes
  show (Graph.ofReport (.drawn []) soloJob.now "demo" d.project d.report).Importable Store.blank.rows
  refine (Graph.ofReport_importable_iff
    (fun _ _ _ hm => absurd hm List.not_mem_nil) fun _ _ _ hm => absurd hm List.not_mem_nil).mpr
      ⟨?_, ?_⟩
  · refine (congrArg List.Nodup hnodes).mpr ?_
    show [Hash.Uuid.drawn [] "project", .drawn [] "package 0", .drawn [] "file 0 0"].Nodup
    decide +kernel
  · refine (congrArg List.Nodup (Graph.relationshipIds_drawn [] soloJob.now d)).mpr ?_
    rw [hlinks]
    decide +kernel

/-- A run on one file announces it once. -/
theorem Session.pipeline_progress_solo : ∃ a f,
    ((pipeline 1000 soloJob).performIn (.sound .never) .blank).outcome = .ok (a, f) ∧
      let events := ((pipeline 1000 soloJob).performIn (.sound .never) .blank).events
      Advances events ∧
        events.filter (·.phase = .parse) = [startEvent 1, parsedEvent 1 1] := by
  obtain ⟨p, hread, hpackages⟩ := exists_read_solo
  have hcalm : (Surroundings.sound .never).Calm := ⟨fun _ _ => rfl, fun _ => rfl⟩
  obtain ⟨a, f, hrun⟩ : ∃ a f,
      ((pipeline 1000 soloJob).performIn (.sound .never) .blank).outcome = .ok (a, f) :=
    pipeline_ends_well 1000 hcalm (by decide) hread Tables.consistent_empty
      (importable_solo hpackages)
  obtain ⟨place, found, hplace, hfound, -, hadvances, hparse, -⟩ := pipeline_progress hrun
  obtain rfl : [FileName.ofText "p"] = place := Except.ok.inj ((rootPlace_child _).symm.trans hplace)
  obtain rfl := Except.ok.inj (discoverAt_solo.symm.trans hfound)
  exact ⟨a, f, hrun, hadvances, hparse⟩

end CodeGraph

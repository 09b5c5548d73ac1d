import CodeGraph.Proofs.Store.Figures
import CodeGraph.Proofs.Store.History

/-!
# An import replaces a project

* `Graph.StoredIn` — a graph is all that tables say of its project.
* `Graph.Importable.again` — a graph that has been imported can be imported again, and
  `Graph.importedInto_again` says that nothing but the time of writing changes.
* `Session.importGraph_replaces_project` — when an import succeeds, what it leaves and what it
  answers.
-/

namespace CodeGraph

variable {g : Graph} {t : Tables}

/-! ### Tables with an imported graph -/

/-- A graph is all that tables say of its project: there is one row for each of its parts and no
other, and these are the numbers that are counted and recorded. -/
structure Graph.StoredIn (g : Graph) (t : Tables) : Prop where
  nodes : (t.nodes.filter (·.projectId = g.projectId)).Perm g.nodes
  relationships : (t.relationships.filter (·.projectId = g.projectId)).Perm g.relationships
  nodeCount : Store.countNodes ⟨some t⟩ g.projectId none = .ok g.nodes.length
  relationshipCount :
    Store.countRelationships ⟨some t⟩ g.projectId none = .ok g.relationships.length
  recorded : ∃ m, t.metadata? g.projectId = some m ∧ m.nodeCount = g.nodes.length ∧
    m.relationshipCount = g.relationships.length

namespace Graph

theorem Importable.metadata?_importedInto (h : g.Importable t) (now : Instant) :
    (g.importedInto now t).metadata? g.projectId = some (g.metadata now) :=
  Tables.metadata_replaced (h.fits now)

theorem Importable.storedIn (h : g.Importable t) (now : Instant) :
    g.StoredIn (g.importedInto now t) where
  nodes := by
    rw [importedInto, Tables.nodes_replaced (h.fits now)]
    exact g.nodesByLabel_perm
  relationships := by
    rw [importedInto, Tables.relationships_replaced (h.fits now)]
    exact g.relationshipsByLabel_perm
  nodeCount := by
    show Except.ok ((g.importedInto now t).nodeCount g.projectId none) = _
    rw [importedInto, Tables.nodeCount_replaced (h.fits now), g.nodesByLabel_perm.length_eq]
  relationshipCount := by
    show Except.ok ((g.importedInto now t).relationshipCount g.projectId none) = _
    rw [importedInto, Tables.relationshipCount_replaced (h.fits now),
      g.relationshipsByLabel_perm.length_eq]
  recorded := ⟨_, h.metadata?_importedInto now, rfl, rfl⟩

/-- The figures of the project are those of the graph. -/
theorem Importable.projectFigures (h : g.Importable t) {now : Instant} (hsummary : g.summary.Sized)
    (hanalyzed : g.analyzedAt.Storable) (hnow : now.Storable) :
    Store.projectFigures ⟨some (g.importedInto now t)⟩ g.projectId =
      .ok (some ⟨g.projectId, g.nodes.length, g.relationships.length, g.summary, g.analyzedAt,
        now⟩) := by
  have hfigures := figures_metadata hsummary hanalyzed hnow
  simp only [Store.projectFigures, Store.require, bind, Except.bind,
    h.metadata?_importedInto now, hfigures]
  rfl

/-- The keys of an imported graph are those of its own project. -/
theorem Importable.again (h : g.Importable t) (now : Instant) :
    g.Importable (g.importedInto now t) where
  nodes_within := h.nodes_within
  relationships_within := h.relationships_within
  ends := h.ends
  nodup_nodes := h.nodup_nodes
  nodup_relationships := h.nodup_relationships
  nodes_apart n hn m hm hid := by
    rcases List.mem_append.mp hm with hm | hm
    · exact h.nodes_apart n hn m (Tables.mem_others_nodes.mp hm).1 hid
    · exact h.nodes_within m (g.nodesByLabel_perm.mem_iff.mp hm)
  relationships_apart r hr m hm hid := by
    rcases List.mem_append.mp hm with hm | hm
    · exact h.relationships_apart r hr m (Tables.mem_others_relationships.mp hm).1 hid
    · exact h.relationships_within m (g.relationshipsByLabel_perm.mem_iff.mp hm)

/-- A second import changes nothing but the time of writing. -/
theorem importedInto_again (h : g.Importable t) (now now' : Instant) :
    g.importedInto now' (g.importedInto now t) = g.importedInto now' t := by
  have hothers : (g.importedInto now t).others g.projectId = t.others g.projectId :=
    Tables.others_replaced (h.fits now)
  simp only [importedInto, Tables.replaced] at hothers ⊢
  rw [hothers]

theorem importedInto_nodes (now now' : Instant) :
    (g.importedInto now' t).nodes = (g.importedInto now t).nodes := by
  simp only [importedInto, Tables.replaced]

theorem importedInto_relationships (now now' : Instant) :
    (g.importedInto now' t).relationships = (g.importedInto now t).relationships := by
  simp only [importedInto, Tables.replaced]

end Graph

/-! ### The import -/

namespace Session

variable {ε α : Type} {around : Surroundings}

/-- A whole session in calm surroundings gets where it leads. -/
theorem Leads.performIn {w : Session ε α} {a : α} {t' : Tables} (hw : Leads w t a t')
    (calm : around.Calm) :
    (w.performIn around ⟨some t⟩).outcome = .ok a ∧
      (w.performIn around ⟨some t⟩).store = ⟨some t'⟩ := by
  obtain ⟨s', hrun, hs'⟩ := hw around (.start ⟨some t⟩) calm rfl
  simp only [Session.performIn, hrun, hs', and_self]

/-- In calm surroundings an import into consistent tables succeeds exactly if the graph can be
imported. -/
theorem importGraph_isOk_iff {t : Tables} (hc : t.Consistent) (calm : around.Calm) (size : Nat)
    (now : Instant) (g : Graph) :
    (∃ f, ((importGraph size now g).performIn around ⟨some t⟩).outcome = .ok f) ↔
      g.Importable t := by
  refine ⟨fun ⟨f, hf⟩ => ?_, fun h => ?_⟩
  · cases hrun : importGraph size now g around (.start ⟨some t⟩) with
    | mk outcome s' =>
      simp only [performIn, hrun] at hf
      rw [hf] at hrun
      exact (importable_of_importGraph_eq_ok hc rfl hrun).1
  · exact ⟨_, ((importGraph_leads_of_importable hc h).performIn calm).1⟩

/-- **An import replaces a project.**  In calm surroundings it succeeds exactly if the graph can be
imported.  Then the graph is all that the store says of its project, the answer counts the rows
written and the rows deleted, the figures of the project read back as those of the graph, and the
same import succeeds again and leaves the same rows. -/
theorem importGraph_replaces_project {s : Store} (hs : s.Reachable) (calm : around.Calm)
    (size : Nat) (now : Instant) (g : Graph) :
    ∃ t, s = ⟨some t⟩ ∧
      ((∃ f, ((importGraph size now g).performIn around s).outcome = .ok f) ↔ g.Importable t) ∧
      ∀ f, ((importGraph size now g).performIn around s).outcome = .ok f →
        (f.nodesWritten = g.nodes.length ∧ f.relationshipsWritten = g.relationships.length) ∧
        (s.countNodes g.projectId none = .ok f.cleared.nodes ∧
          s.countRelationships g.projectId none = .ok f.cleared.relationships) ∧
        ∃ t', ((importGraph size now g).performIn around s).store = ⟨some t'⟩ ∧ g.StoredIn t' ∧
          (g.summary.Sized → g.analyzedAt.Storable → now.Storable →
            Store.projectFigures ⟨some t'⟩ g.projectId =
              .ok (some ⟨g.projectId, g.nodes.length, g.relationships.length, g.summary,
                g.analyzedAt, now⟩)) ∧
          ∀ around' size' now', around'.Calm →
            (∃ f', ((importGraph size' now' g).performIn around' ⟨some t'⟩).outcome = .ok f') ∧
            ∃ t'', ((importGraph size' now' g).performIn around' ⟨some t'⟩).store = ⟨some t''⟩ ∧
              g.StoredIn t'' ∧ t''.nodes = t'.nodes ∧ t''.relationships = t'.relationships := by
  obtain ⟨t, rfl, hc⟩ := hs.consistent
  have hsuccess : ∀ f, ((importGraph size now g).performIn around ⟨some t⟩).outcome = .ok f →
      g.Importable t ∧
        ((importGraph size now g).performIn around ⟨some t⟩).store =
          ⟨some (g.importedInto now t)⟩ ∧ f = importFigures size g t := by
    intro f hf
    cases hrun : importGraph size now g around (.start ⟨some t⟩) with
    | mk outcome s' =>
      simp only [performIn, hrun] at hf ⊢
      rw [hf] at hrun
      exact importable_of_importGraph_eq_ok hc rfl hrun
  refine ⟨t, rfl, ⟨?_, fun h => ?_⟩, fun f hf => ?_⟩
  · rintro ⟨f, hf⟩
    exact (hsuccess f hf).1
  · exact ⟨_, ((importGraph_leads_of_importable hc h).performIn calm).1⟩
  · obtain ⟨himportable, hstore, rfl⟩ := hsuccess f hf
    refine ⟨⟨rfl, rfl⟩, ⟨rfl, rfl⟩, g.importedInto now t, hstore, himportable.storedIn now,
      himportable.projectFigures, fun around' size' now' calm' => ?_⟩
    -- the tables after the import are consistent, and the graph can be imported into them
    have hagain := himportable.again now
    have hconsistent : (g.importedInto now t).Consistent := hc.replaced (himportable.fits now)
    have hleads : Leads (importGraph size' now' g) _ _ _ :=
      importGraph_leads_of_importable hconsistent hagain
    obtain ⟨hok, hstore'⟩ := hleads.performIn calm'
    refine ⟨⟨_, hok⟩, _, hstore', hagain.storedIn now', ?_, ?_⟩
    · rw [Graph.importedInto_again himportable, Graph.importedInto_nodes now now']
    · rw [Graph.importedInto_again himportable, Graph.importedInto_relationships now now']

/-- A project is imported anew with keys of which one was its own, beside another project. -/
theorem importGraph_replaces_couple :
    let run := (importGraph 1 (Graph.couple "a" 1).analyzedAt (.couple "a" 1)).performIn
      (.sound .never) Store.withCouples
    Store.withCouples.Reachable ∧ (Surroundings.sound .never).Calm ∧
      run.outcome = .ok ⟨⟨2, 1⟩, 2, 1, 2, 1⟩ ∧
      ∃ t', run.store = ⟨some t'⟩ ∧ (Graph.couple "a" 1).StoredIn t' ∧
        Store.projectFigures ⟨some t'⟩ "a" =
          .ok (some ⟨"a", 2, 1, (Graph.couple "a" 1).summary, (Graph.couple "a" 1).analyzedAt,
            (Graph.couple "a" 1).analyzedAt⟩) := by
  intro run
  have hcalm : (Surroundings.sound .never).Calm := ⟨fun _ _ => rfl, fun _ => rfl⟩
  have hok : run.outcome = .ok ⟨⟨2, 1⟩, 2, 1, 2, 1⟩ := by
    decide +kernel
  obtain ⟨t, -, -, hafter⟩ := importGraph_replaces_project Store.reachable_withCouples hcalm 1
    (Graph.couple "a" 1).analyzedAt (.couple "a" 1)
  obtain ⟨-, -, t', ht', hstored, hfigures, -⟩ := hafter _ hok
  exact ⟨Store.reachable_withCouples, hcalm, hok, t', ht', hstored,
    hfigures (by decide) (by decide) (by decide)⟩

end Session

end CodeGraph

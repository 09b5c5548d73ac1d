import CodeGraph.Proofs.Graph.Directory
import CodeGraph.Proofs.Hash.Uuid
import CodeGraph.Proofs.Json.Writer
import CodeGraph.Proofs.Lists

/-!
# Keys of nodes and relationships

* `Draft.heading` — the label, qualified name, path and line of a node; `Draft.key_eq_iff` says that a
  key tells no more and no less.
* `Identities.relationshipKey_inj` — the key of a relationship tells everything that is known of it.
* `Directory.nodeNames`, `Directory.linkNames` — the names that content-addressed identifiers are made
  of.
* `Directory.node_eq_iff`, `Directory.nodup_linkIds_iff` — what those identifiers tell apart, as long
  as the hash tells the names apart (`Identities.TellsApart`).
-/

namespace CodeGraph

open Hash (Uuid)

/-! ### Parts of keys -/

/-- A text that does not hold the mark between the parts of keys. -/
def Unmarked (s : String) : Prop := '\x00' ∉ s.toList

instance (s : String) : Decidable (Unmarked s) := inferInstanceAs (Decidable ('\x00' ∉ s.toList))

/-- The first part of a key and what comes after it. -/
theorem keyParts_inj {s t u v : String} {ss ts : List String} (hs : Unmarked s) (ht : Unmarked t)
    (h : "\x00".intercalate (s :: u :: ss) = "\x00".intercalate (t :: v :: ts)) :
    s = t ∧ "\x00".intercalate (u :: ss) = "\x00".intercalate (v :: ts) := by
  have hmark : "\x00".toList = ['\x00'] := rfl
  have hchars := congrArg String.toList h
  simp only [String.intercalate_cons_cons, String.toList_append, hmark, List.append_assoc,
    List.singleton_append] at hchars
  obtain ⟨hfirst, hrest⟩ := append_cons_inj hs ht hchars
  exact ⟨String.toList_inj.mp hfirst, String.toList_inj.mp hrest⟩

theorem NodeType.word_inj {a b : NodeType} (h : a.word = b.word) : a = b := by
  revert h
  cases a <;> cases b <;> decide

theorem NodeType.unmarked_word (t : NodeType) : Unmarked t.word := by
  cases t <;> decide

theorem RelationshipType.word_inj {a b : RelationshipType} (h : a.word = b.word) : a = b := by
  revert h
  cases a <;> cases b <;> decide

theorem RelationshipType.unmarked_word (t : RelationshipType) : Unmarked t.word := by
  cases t <;> decide

theorem toString_nat_inj {m n : Nat} (h : toString m = toString n) : m = n := by
  have hdigits : Nat.toDigits 10 m = Nat.toDigits 10 n := by
    rw [← String.toList_ofList (l := Nat.toDigits 10 m), ← String.toList_ofList (l := Nat.toDigits 10 n)]
    exact congrArg String.toList h
  rw [← Decimal.ofDigits_toDigits m, hdigits, Decimal.ofDigits_toDigits n]

/-! ### Nodes -/

namespace Draft

variable {x y : Draft}

/-- The label, qualified name, path and line of a node. -/
def heading (x : Draft) : NodeType × String × String × Nat :=
  (x.label, x.qualifiedName, x.path.getD "", x.line)

/-- The qualified name and the path of a node do not hold the mark of keys. -/
def Plain (x : Draft) : Prop := Unmarked x.qualifiedName ∧ Unmarked (x.path.getD "")

instance (x : Draft) : Decidable x.Plain := inferInstanceAs (Decidable (_ ∧ _))

/-- A key tells no more than the heading of a node. -/
theorem key_of_heading (h : x.heading = y.heading) : x.key = y.key := by
  simp only [heading, Prod.mk.injEq] at h
  obtain ⟨hlabel, hname, hpath, hline⟩ := h
  rw [key, key, hlabel, hname, hpath, hline]

/-- A key tells the heading of a node, no more and no less. -/
theorem key_eq_iff (hx : x.Plain) (hy : y.Plain) : x.key = y.key ↔ x.heading = y.heading := by
  refine ⟨fun h => ?_, key_of_heading⟩
  obtain ⟨hlabel, h⟩ := keyParts_inj x.label.unmarked_word y.label.unmarked_word h
  obtain ⟨hname, h⟩ := keyParts_inj hx.1 hy.1 h
  obtain ⟨hpath, h⟩ := keyParts_inj hx.2 hy.2 h
  rw [String.intercalate_singleton, String.intercalate_singleton] at h
  simp only [heading, NodeType.word_inj hlabel, hname, hpath, toString_nat_inj h]

end Draft

/-! ### Relationships -/

open Json in
/-- Properties of one label are known by their texts. -/
theorem RelationshipProperties.compact_inj {a b : RelationshipProperties} (hlabel : a.label = b.label)
    (h : a.toJson.compact = b.toJson.compact) : a = b := by
  have htagged {kind : String} {ms ns : List (String × Json)}
      (h : (tagged kind ms).compact = (tagged kind ns).compact) : tailChars ms = tailChars ns := by
    have hchars := congrArg String.toList h
    simp only [compact, tagged, compactPieces, String.toList_join, List.flatMap_cons,
      List.append_cancel_left_eq] at hchars
    exact hchars
  cases a <;> cases b <;> cases hlabel
  case contains => rfl
  case imports =>
    obtain ⟨hname, h⟩ := member_inj selfDelimiting_optionalText (htagged h)
    obtain ⟨hline, -⟩ := member_inj selfDelimiting_nat h
    rw [hname, hline]
  case calls k _ _ k' _ _ =>
    obtain ⟨hkind, h⟩ := member_inj selfDelimiting_text (htagged h)
    obtain ⟨hline, h⟩ := member_inj selfDelimiting_nat h
    obtain ⟨hmatched, -⟩ := member_inj selfDelimiting_bool h
    have hword : ∀ k k' : CallKind, k.word = k'.word → k = k' := by
      intro k k'
      cases k <;> cases k' <;> decide
    rw [hword k k' hkind, hline, hmatched]
  case implements => rw [(member_inj selfDelimiting_bool (htagged h)).1]
  case hasMethod => rw [(member_inj selfDelimiting_bool (htagged h)).1]
  case hasField => rw [(member_inj selfDelimiting_bool (htagged h)).1]
  case dependsOn =>
    obtain ⟨hweight, h⟩ := member_inj selfDelimiting_nat (htagged h)
    obtain ⟨hcycle, -⟩ := member_inj selfDelimiting_bool h
    rw [hweight, hcycle]

namespace Identities

/-- The key of a relationship tells everything that is known of it. -/
theorem relationshipKey_inj {s t s' t' : Uuid} {a b : RelationshipProperties}
    (hs : s.value < 256 ^ 16 ∧ s'.value < 256 ^ 16) (ht : t.value < 256 ^ 16 ∧ t'.value < 256 ^ 16)
    (h : relationshipKey s t a = relationshipKey s' t' b) : s = s' ∧ t = t' ∧ a = b := by
  obtain ⟨hlabel, h⟩ := keyParts_inj a.label.unmarked_word b.label.unmarked_word h
  obtain ⟨hsource, h⟩ := keyParts_inj s.nul_notMem_toText s'.nul_notMem_toText h
  obtain ⟨htarget, h⟩ := keyParts_inj t.nul_notMem_toText t'.nul_notMem_toText h
  rw [String.intercalate_singleton, String.intercalate_singleton] at h
  exact ⟨Uuid.toText_inj hs.1 hs.2 hsource, Uuid.toText_inj ht.1 ht.2 htarget,
    RelationshipProperties.compact_inj (RelationshipType.word_inj hlabel) h⟩

/-- The name of a key within a project. -/
def name (projectId key : String) : String := projectId ++ "\x00" ++ key

theorem name_inj {projectId a b : String} (h : name projectId a = name projectId b) : a = b := by
  have hchars := congrArg String.toList h
  simp only [name, String.toList_append, List.append_cancel_left_eq] at hchars
  exact String.toList_inj.mp hchars

/-- The hash of names tells them apart. -/
def TellsApart (names : List String) : Prop :=
  ∀ a ∈ names, ∀ b ∈ names, Uuid.named space a = Uuid.named space b → a = b

/-- Names are told apart if they are among names with distinct identifiers. -/
theorem tellsApart_of_nodup {names all : List String} (hnames : names ⊆ all)
    (h : (all.map (Uuid.named space)).Nodup) : TellsApart names :=
  fun _ ha _ hb hab => List.inj_on_of_nodup_map h (hnames ha) (hnames hb) hab

end Identities

/-! ### Graphs -/

namespace Directory

variable (d : Directory)

/-- The names that the identifiers of nodes are made of. -/
def nodeNames : List String := d.drafts.map fun x => Identities.name d.projectId x.key

/-- The key of a relationship whose identifiers come from content. -/
def linkKey (l : Link) : String :=
  let ids : Identities := .contentAddressed d.projectId
  Identities.relationshipKey (ids.node l.source) (ids.node l.target) l.properties

/-- The names that the identifiers of relationships are made of. -/
def linkNames : List String :=
  (d.links (.contentAddressed d.projectId)).map fun l => Identities.name d.projectId (d.linkKey l)

/-- The identifiers at both ends of a link, with its properties. -/
def linkEnds (l : Link) : Uuid × Uuid × RelationshipProperties :=
  let ids : Identities := .contentAddressed d.projectId
  (ids.node l.source, ids.node l.target, l.properties)

variable {d}

/-- Nodes have one identifier exactly if they have one heading. -/
theorem node_eq_iff (hplain : ∀ x ∈ d.drafts, x.Plain) (happart : Identities.TellsApart d.nodeNames)
    {x y : Draft} (hx : x ∈ d.drafts) (hy : y ∈ d.drafts) :
    (Identities.contentAddressed d.projectId).node x =
      (Identities.contentAddressed d.projectId).node y ↔ x.heading = y.heading := by
  rw [← Draft.key_eq_iff (hplain x hx) (hplain y hy)]
  constructor
  · intro h
    exact Identities.name_inj (happart _ (List.mem_map.mpr ⟨x, hx, rfl⟩) _
      (List.mem_map.mpr ⟨y, hy, rfl⟩) h)
  · intro h
    exact congrArg (fun key => Uuid.named Identities.space (Identities.name d.projectId key)) h

/-- Relationships have distinct identifiers exactly if they differ in their ends or their
properties. -/
theorem nodup_linkIds_iff (happart : Identities.TellsApart d.linkNames) :
    (d.linkNames.map (Uuid.named Identities.space)).Nodup ↔
      ((d.links (.contentAddressed d.projectId)).map d.linkEnds).Nodup := by
  rw [linkNames, List.map_map]
  refine nodup_map_congr fun l hl m hm => ⟨fun h => ?_, fun h => ?_⟩
  · have hname := happart _ (List.mem_map.mpr ⟨l, hl, rfl⟩) _ (List.mem_map.mpr ⟨m, hm, rfl⟩) h
    obtain ⟨hsource, htarget, hproperties⟩ := Identities.relationshipKey_inj
      ⟨Uuid.named_lt _ _, Uuid.named_lt _ _⟩ ⟨Uuid.named_lt _ _, Uuid.named_lt _ _⟩
      (Identities.name_inj hname)
    exact Prod.ext hsource (Prod.ext htarget hproperties)
  · obtain ⟨hsource, hrest⟩ := Prod.mk.inj h
    obtain ⟨htarget, hproperties⟩ := Prod.mk.inj hrest
    simp only [Function.comp_apply, linkKey, hsource, htarget, hproperties]

end Directory

end CodeGraph

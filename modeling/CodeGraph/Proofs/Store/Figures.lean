import CodeGraph.Proofs.Json.Reader
import CodeGraph.Proofs.Time.Column
import CodeGraph.Store.Import
import CodeGraph.Store.Overview

/-!
# Figures read back

* `Summary.members` — the numbers of a summary under their keys; `Summary.Sized` — each of them is a
  number of sixty-four bits.
* `Summary.read_compact` — a summary is read back from its text.
* `Graph.figures_metadata` — the row of figures for a graph gives the figures of the graph.
-/

namespace CodeGraph

open Json (nat numbers asNat64?)

/-! ### Summaries -/

namespace Summary

/-- The numbers of a summary under their keys. -/
def members (s : Summary) : List (String × Nat) :=
  [("files", s.files), ("packages", s.packages), ("functions", s.functions),
    ("methods", s.methods), ("structs", s.structs), ("interfaces", s.interfaces),
    ("external_imports", s.externalImports), ("implementations", s.implementations),
    ("resolved_calls", s.resolvedCalls), ("unresolved_calls", s.unresolvedCalls),
    ("cycles", s.cycles), ("parse_errors", s.parseErrors)]

/-- Every number of the summary is one of sixty-four bits. -/
def Sized (s : Summary) : Prop := ∀ m ∈ s.members, m.2 < 2 ^ 64

instance (s : Summary) : Decidable s.Sized :=
  List.decidableBAll (fun m : String × Nat => m.2 < 2 ^ 64) s.members

theorem toJson_eq (s : Summary) : s.toJson = .object (numbers s.members) := rfl

theorem asNat64?_nat {n : Nat} (h : n < 2 ^ 64) : asNat64? (nat n) = some n := by
  have hfits : n < 18446744073709551616 := h
  simp [asNat64?, Json.asNat?, nat, hfits]

theorem lookup_numbers (ms : List (String × Nat)) (key : String) :
    (numbers ms).lookup key = (ms.lookup key).map nat := by
  induction ms with
  | nil => rfl
  | cons m ms ih =>
    rw [Json.numbers_cons, List.lookup_cons, List.lookup_cons, ih]
    cases key == m.1 <;> rfl

theorem mem_of_lookup {ms : List (String × Nat)} {key : String} {n : Nat}
    (h : ms.lookup key = some n) : (key, n) ∈ ms := by
  obtain ⟨before, after, rfl, -⟩ := List.lookup_eq_some_iff.mp h
  exact List.mem_append_right _ List.mem_cons_self

theorem field?_toJson {s : Summary} (h : s.Sized) (key : String) {n : Nat}
    (hn : s.members.lookup key = some n) : s.toJson.field? key asNat64? = some n := by
  have hmember : s.toJson.member? key = some (nat n) := by
    rw [toJson_eq, Json.member?, lookup_numbers, hn]
    rfl
  rw [Json.field?, hmember]
  exact asNat64?_nat (h _ (mem_of_lookup hn))

theorem ofJson?_toJson {s : Summary} (h : s.Sized) : ofJson? s.toJson = some s := by
  unfold ofJson?
  simp only [field?_toJson h "files" rfl, field?_toJson h "packages" rfl,
    field?_toJson h "functions" rfl, field?_toJson h "methods" rfl,
    field?_toJson h "structs" rfl, field?_toJson h "interfaces" rfl,
    field?_toJson h "external_imports" rfl,
    field?_toJson h "implementations" rfl, field?_toJson h "resolved_calls" rfl,
    field?_toJson h "unresolved_calls" rfl, field?_toJson h "cycles" rfl,
    field?_toJson h "parse_errors" rfl]
  rfl

/-- **A summary is read back from its text.** -/
theorem read_compact {s : Summary} (h : s.Sized) :
    (Json.read? s.toJson.compact).bind ofJson? = some s := by
  rw [toJson_eq, Json.read?_compact_numbers h, Option.bind_some, ← toJson_eq,
    ofJson?_toJson h]

end Summary

/-! ### The figures of a graph -/

/-- The row of figures for a graph gives the figures of the graph. -/
theorem Graph.figures_metadata {g : Graph} {now : Instant} (hsummary : g.summary.Sized)
    (hanalyzed : g.analyzedAt.Storable) (hnow : now.Storable) :
    (g.metadata now).figures =
      .ok ⟨g.projectId, g.nodes.length, g.relationships.length, g.summary, g.analyzedAt, now⟩ := by
  simp only [MetadataRow.figures, metadata, summaryInColumn, Summary.read_compact hsummary,
    timeInColumn, Instant.read_columnText hanalyzed, Instant.read_columnText hnow]
  rfl

end CodeGraph

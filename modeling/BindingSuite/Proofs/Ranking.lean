import BindingSuite.Proofs.GraphUpdates
import BindingSuite.Proofs.Validity

/-! # Cycles and rankings of call graphs

A name is recursive when a cycle of calls goes through it, however long the cycle is. Where there is
no cycle the names can be ranked by numbers that fall along every call.

* `CallGraph.IsRanking` says that numbers fall along the calls of a graph, and
  `IsRanking.lt_of_transGen` that they fall along chains of calls then;
* `CallGraph.extent` counts the names that a name reaches, and `isRanking_extent` says that this is
  a ranking where no cycle is;
* `isRecursive_afterUpdates` concludes for the graph after any sequence of updates, and
  `Program.recursive_notMem_declarationReasons_iff` for the declarations of a program. -/

namespace BindingSuite

namespace CallGraph

variable {graph : CallGraph}

/-- A ranking gives numbers to names so that every caller has a larger one than its callees. -/
def IsRanking (graph : CallGraph) (rank : String → Nat) : Prop :=
  ∀ caller callee, graph.Calls caller callee → rank callee < rank caller

/-- Ranks fall along chains of one or more calls. -/
theorem IsRanking.lt_of_transGen {rank : String → Nat} (ranking : graph.IsRanking rank)
    {source target : String} (chain : Relation.TransGen graph.Calls source target) :
    rank target < rank source := by
  induction chain with
  | single call => exact ranking _ _ call
  | tail _ call less => exact (ranking _ _ call).trans less

/-- With a ranking, no name is recursive. -/
theorem IsRanking.isRecursive_eq_false {rank : String → Nat} (ranking : graph.IsRanking rank)
    (name : String) : graph.isRecursive name = false := by
  rw [← Bool.not_eq_true, isRecursive_iff_transGen]
  exact fun cycle => (ranking.lt_of_transGen cycle).false

/-! ## The ranking of an acyclic graph -/

/-- How many names a name reaches, itself included. -/
def extent (graph : CallGraph) (name : String) : Nat :=
  (graph.reachable name).length

/-- A name reaches more than its callees do, unless a callee reaches it. -/
theorem extent_lt_of_calls {caller callee : String} (call : graph.Calls caller callee)
    (noReturn : ¬graph.Reaches callee caller) : graph.extent callee < graph.extent caller := by
  -- The caller itself comes on top of all that its callee reaches.
  have distinct : (caller :: graph.reachable callee).Nodup :=
    List.nodup_cons.mpr ⟨mt mem_reachable.mp noReturn, nodup_reachable graph callee⟩
  have inside : caller :: graph.reachable callee ⊆ graph.reachable caller := by
    refine List.cons_subset.mpr ⟨mem_reachable.mpr .refl, fun target member => ?_⟩
    exact mem_reachable.mpr (.head call (mem_reachable.mp member))
  exact (distinct.subperm inside).length_le

/-- Where no name is recursive, the numbers of names reached are a ranking. -/
theorem isRanking_extent (acyclic : ∀ name, graph.isRecursive name = false) :
    graph.IsRanking graph.extent := by
  intro caller callee call
  refine extent_lt_of_calls call fun reaches => ?_
  have recursive : graph.isRecursive caller = true := isRecursive_iff.mpr ⟨callee, call, reaches⟩
  rw [acyclic caller] at recursive
  cases recursive

/-- There is a ranking exactly when no name is recursive. -/
theorem exists_isRanking_iff :
    (∃ rank, graph.IsRanking rank) ↔ ∀ name, graph.isRecursive name = false :=
  ⟨fun ⟨_, ranking⟩ => ranking.isRecursive_eq_false,
    fun acyclic => ⟨graph.extent, isRanking_extent acyclic⟩⟩

/-! ## Updated graphs -/

/-- A recursive name calls something, so that the updates made it a function. -/
theorem mem_functions_of_isRecursive {updates : List Update} {name : String}
    (recursive : (empty.afterUpdates updates).isRecursive name = true) :
    name ∈ (empty.afterUpdates updates).functions := by
  obtain ⟨callee, call, -⟩ := isRecursive_iff.mp recursive
  have knows := knows_of_updates updates
  exact (knows.functions name).mpr
    (.inr (.inl ⟨callee, (knows.callees name callee).mp (mem_callees.mpr call)⟩))

/-- Recursion is exactly a cycle of calls. After any sequence of updates a name is recursive when a
chain of one or more added calls leads from it back to it. So names can be ranked by numbers that
fall along every added call exactly when no function of the graph is recursive. -/
theorem isRecursive_afterUpdates (updates : List Update) :
    (∀ name, (empty.afterUpdates updates).isRecursive name = true ↔
      Relation.TransGen (fun caller callee => .call caller callee ∈ updates) name name) ∧
    ((∃ rank : String → Nat, ∀ caller callee,
        .call caller callee ∈ updates → rank callee < rank caller) ↔
      ∀ name ∈ (empty.afterUpdates updates).functions,
        (empty.afterUpdates updates).isRecursive name = false) := by
  have calls := calls_of_empty updates
  refine ⟨fun name => by rw [isRecursive_iff_transGen, calls], ?_⟩
  have rankings : (∃ rank, (empty.afterUpdates updates).IsRanking rank) ↔
      ∃ rank : String → Nat, ∀ caller callee,
        .call caller callee ∈ updates → rank callee < rank caller := by
    simp only [IsRanking, calls]
  rw [← rankings, exists_isRanking_iff]
  constructor
  · exact fun acyclic name _ => acyclic name
  · intro acyclic name
    by_contra recursive
    rw [Bool.not_eq_false] at recursive
    rw [acyclic name (mem_functions_of_isRecursive recursive)] at recursive
    cases recursive

/-- A name that leads into a cycle, and names that two calls lead to, are not recursive. -/
example :
    ["entry", "a", "b", "left", "right", "leaf"].filter
      (empty.afterUpdates [.call "entry" "a", .call "a" "b", .call "b" "a", .call "entry" "left",
        .call "entry" "right", .call "left" "leaf", .call "right" "leaf"]).isRecursive =
      ["a", "b"] := by
  cbv

end CallGraph

/-! ## Programs -/

namespace Program

variable {program : Program}

/-- The declarations of a program are found recursive at the names of its recursive functions. -/
theorem recursive_mem_declarationReasons {name : String} :
    .recursive name ∈ program.declarationReasons ↔
      ∃ function ∈ program.functions, program.callGraph.isRecursive function.name = true ∧
        function.name = name := by
  simp [declarationReasons, referenceReasons, and_assoc]

/-- No declaration is found recursive exactly when the functions can be ranked so that each stands
above those that it calls. -/
theorem recursive_notMem_declarationReasons_iff :
    (∀ name, .recursive name ∉ program.declarationReasons) ↔
      ∃ rank : String → Nat, ∀ caller callee,
        program.Calls caller callee → rank callee < rank caller := by
  have rankings : (∃ rank, program.callGraph.IsRanking rank) ↔
      ∃ rank : String → Nat, ∀ caller callee,
        program.Calls caller callee → rank callee < rank caller := by
    simp only [CallGraph.IsRanking, calls_callGraph]
  rw [← rankings, CallGraph.exists_isRanking_iff]
  simp only [recursive_mem_declarationReasons, ← Bool.not_eq_true,
    CallGraph.isRecursive_iff_transGen, calls_callGraph, ← acyclic_iff]
  grind

end Program

end BindingSuite

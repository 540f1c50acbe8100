import BindingSuite.Proofs.CallClosure

/-! # Updates of call graphs

What a call graph knows after any sequence of updates: exactly what it was told, in whatever order
and however often.

* `Update` is one update, and `afterUpdates` the graph after some of them; `ofNodes_eq_afterUpdates`
  takes the graph of whole functions for a sequence of updates as well;
* `mem_calls_afterUpdates`, `mem_uses_afterUpdates` and `mem_functions_afterUpdates` say what
  the updates leave behind, by one step lemma each;
* `Knows` collects what a graph says of its updates, to the closure of the calls that a search
  finds, and `knows_afterUpdates` says that it knows all of them and nothing else. -/

namespace BindingSuite.CallGraph

/-! ## Updates -/

/-- An update of a call graph. -/
inductive Update where
  /-- Makes a name a function. -/
  | function (name : String)
  /-- Adds a call. -/
  | call (caller callee : String)
  /-- Adds the use of a variable. -/
  | use (function variableName : String)
  deriving DecidableEq

/-- The name that an update makes a function: the function itself, the caller or the user. -/
def Update.subject : Update → String
  | function name => name
  | call caller _ => caller
  | use user _ => user

/-- The graph after an update. -/
def afterUpdate (graph : CallGraph) : Update → CallGraph
  | .function name => graph.insertFunction name
  | .call caller callee => graph.insertCall caller callee
  | .use function variableName => graph.insertUse function variableName

/-- The graph after some updates, the first one first. -/
def afterUpdates (graph : CallGraph) (updates : List Update) : CallGraph :=
  updates.foldl afterUpdate graph

@[simp] theorem afterUpdates_nil (graph : CallGraph) : graph.afterUpdates [] = graph := rfl

@[simp] theorem afterUpdates_cons (graph : CallGraph) (update : Update) (updates : List Update) :
    graph.afterUpdates (update :: updates) = (graph.afterUpdate update).afterUpdates updates := rfl

theorem afterUpdates_append (graph : CallGraph) (first second : List Update) :
    graph.afterUpdates (first ++ second) = (graph.afterUpdates first).afterUpdates second :=
  List.foldl_append

/-! ## What one update adds -/

/-- An update adds a call only if it is that call. -/
theorem mem_calls_afterUpdate {graph : CallGraph} {update : Update} {caller callee : String} :
    (caller, callee) ∈ (graph.afterUpdate update).calls ↔
      update = .call caller callee ∨ (caller, callee) ∈ graph.calls := by
  cases update with
  | function name => simp [afterUpdate]
  | call other target => simp [afterUpdate, eq_comm]
  | use user variableName => simp [afterUpdate]

/-- An update adds a use only if it is that use. -/
theorem mem_uses_afterUpdate {graph : CallGraph} {update : Update}
    {function variableName : String} :
    (function, variableName) ∈ (graph.afterUpdate update).uses ↔
      update = .use function variableName ∨ (function, variableName) ∈ graph.uses := by
  cases update with
  | function name => simp [afterUpdate]
  | call caller callee => simp [afterUpdate]
  | use user target => simp [afterUpdate, eq_comm]

/-- An update adds its subject to the functions. -/
theorem mem_functions_afterUpdate {graph : CallGraph} {update : Update} {name : String} :
    name ∈ (graph.afterUpdate update).functions ↔
      update.subject = name ∨ name ∈ graph.functions := by
  cases update <;> simp [afterUpdate, Update.subject, @eq_comm _ name]

/-! ## What a sequence of updates adds -/

/-- The calls after some updates are the old ones and those that were added. -/
theorem mem_calls_afterUpdates {graph : CallGraph} {updates : List Update}
    {caller callee : String} :
    (caller, callee) ∈ (graph.afterUpdates updates).calls ↔
      .call caller callee ∈ updates ∨ (caller, callee) ∈ graph.calls := by
  induction updates generalizing graph with
  | nil => simp
  | cons update updates ih =>
    rw [afterUpdates_cons, ih, mem_calls_afterUpdate, List.mem_cons, @eq_comm _ update, ← or_assoc,
      or_comm (a := .call caller callee ∈ updates)]

/-- The uses after some updates are the old ones and those that were added. -/
theorem mem_uses_afterUpdates {graph : CallGraph} {updates : List Update}
    {function variableName : String} :
    (function, variableName) ∈ (graph.afterUpdates updates).uses ↔
      .use function variableName ∈ updates ∨ (function, variableName) ∈ graph.uses := by
  induction updates generalizing graph with
  | nil => simp
  | cons update updates ih =>
    rw [afterUpdates_cons, ih, mem_uses_afterUpdate, List.mem_cons, @eq_comm _ update, ← or_assoc,
      or_comm (a := .use function variableName ∈ updates)]

/-- The functions after some updates are the old ones and the subjects of the updates. -/
theorem mem_functions_afterUpdates {graph : CallGraph} {updates : List Update} {name : String} :
    name ∈ (graph.afterUpdates updates).functions ↔
      (∃ update ∈ updates, update.subject = name) ∨ name ∈ graph.functions := by
  induction updates generalizing graph with
  | nil => simp
  | cons update updates ih =>
    rw [afterUpdates_cons, ih, mem_functions_afterUpdate, List.exists_mem_cons_iff, ← or_assoc,
      or_comm (a := ∃ later ∈ updates, later.subject = name)]

/-- A name is the subject of some update when it is given as a function, as a caller or as a
user. -/
theorem exists_subject_iff {updates : List Update} {name : String} :
    (∃ update ∈ updates, update.subject = name) ↔
      .function name ∈ updates ∨ (∃ callee, .call name callee ∈ updates) ∨
        ∃ variableName, .use name variableName ∈ updates := by
  constructor
  · rintro ⟨update, member, rfl⟩
    cases update with
    | function name => exact .inl member
    | call caller callee => exact .inr (.inl ⟨callee, member⟩)
    | use function variableName => exact .inr (.inr ⟨variableName, member⟩)
  · rintro (member | ⟨callee, member⟩ | ⟨variableName, member⟩)
    · exact ⟨_, member, rfl⟩
    · exact ⟨_, member, rfl⟩
    · exact ⟨_, member, rfl⟩

/-! ## Whole functions -/

/-- The updates that add a function with all its calls and uses. -/
def Node.updates (node : Node) : List Update :=
  .function node.name :: (node.calls.map (.call node.name) ++ node.uses.map (.use node.name))

/-- Adding a function is a sequence of updates. -/
theorem insertNode_eq_afterUpdates (graph : CallGraph) (node : Node) :
    graph.insertNode node = graph.afterUpdates node.updates := by
  rw [Node.updates, afterUpdates_cons, afterUpdates_append, afterUpdates, List.foldl_map,
    afterUpdates, List.foldl_map]
  rfl

/-- The graph of some functions is that after the updates that add them one by one. -/
theorem ofNodes_eq_afterUpdates (nodes : List Node) :
    ofNodes nodes = empty.afterUpdates (nodes.flatMap Node.updates) := by
  have fold (graph : CallGraph) :
      nodes.foldl insertNode graph = graph.afterUpdates (nodes.flatMap Node.updates) := by
    induction nodes generalizing graph with
    | nil => rfl
    | cons node rest ih =>
      rw [List.foldl_cons, ih, insertNode_eq_afterUpdates, List.flatMap_cons, afterUpdates_append]
  exact fold empty

/-- The functions of the graph of some functions are these. -/
theorem mem_functions_ofNodes {nodes : List Node} {name : String} :
    name ∈ (ofNodes nodes).functions ↔ ∃ node ∈ nodes, node.name = name := by
  -- Every update of a node has the node's name for its subject.
  have subjects (node : Node) : (∃ update ∈ node.updates, update.subject = name) ↔
      node.name = name := by
    simp only [Node.updates, List.exists_mem_cons_iff, List.mem_append, List.mem_map]
    constructor
    · rintro (same | ⟨update, ⟨callee, -, rfl⟩ | ⟨variableName, -, rfl⟩, same⟩) <;> exact same
    · exact .inl
  rw [ofNodes_eq_afterUpdates, mem_functions_afterUpdates]
  simp only [List.mem_flatMap, empty, List.not_mem_nil, or_false]
  constructor
  · rintro ⟨update, ⟨node, member, isUpdate⟩, same⟩
    exact ⟨node, member, (subjects node).mp ⟨update, isUpdate, same⟩⟩
  · rintro ⟨node, member, same⟩
    obtain ⟨update, isUpdate, same⟩ := (subjects node).mpr same
    exact ⟨update, ⟨node, member, isUpdate⟩, same⟩

/-! ## Searching -/

/-- Exploring lists no name twice. -/
theorem nodup_explore {graph : CallGraph} {seen pending : List String} (distinct : seen.Nodup) :
    (graph.explore seen pending).Nodup := by
  fun_induction explore graph seen pending with
  | case1 seen => exact distinct
  | case2 seen next pending isSeen ih => exact ih distinct
  | case3 seen next pending isNew ih => exact ih (List.nodup_cons.mpr ⟨isNew, distinct⟩)

/-- A search lists no name twice. -/
theorem nodup_reachable (graph : CallGraph) (name : String) : (graph.reachable name).Nodup :=
  nodup_explore List.nodup_nil

/-- The calls of a graph that was empty are those that were added. -/
theorem calls_of_empty (updates : List Update) :
    (empty.afterUpdates updates).Calls = fun caller callee => .call caller callee ∈ updates := by
  funext caller callee
  rw [Calls, mem_calls_afterUpdates, eq_iff_iff]
  exact or_iff_left List.not_mem_nil

/-- The uses of a graph that was empty are those that were added. -/
theorem mem_uses_of_empty {updates : List Update} {function variableName : String} :
    (function, variableName) ∈ (empty.afterUpdates updates).uses ↔
      .use function variableName ∈ updates := by
  rw [mem_uses_afterUpdates]
  exact or_iff_left List.not_mem_nil

/-- A graph knows what some updates say, and nothing else. -/
structure Knows (graph : CallGraph) (updates : List Update) : Prop where
  /-- A name calls what a call of it was added to. -/
  callees : ∀ caller callee, callee ∈ graph.callees caller ↔ .call caller callee ∈ updates
  /-- A name uses the variables of which a use by it was added. -/
  usesOf : ∀ function variableName,
    variableName ∈ graph.usesOf function ↔ .use function variableName ∈ updates
  /-- The functions are the names given as functions, as callers or as users. -/
  functions : ∀ name, name ∈ graph.functions ↔
    .function name ∈ updates ∨ (∃ callee, .call name callee ∈ updates) ∨
      ∃ variableName, .use name variableName ∈ updates
  /-- A search from any name lists no name twice. -/
  nodup : ∀ source, (graph.reachable source).Nodup
  /-- A search from any name finds the names to which added calls lead from there. -/
  reachable : ∀ source target, target ∈ graph.reachable source ↔
    Relation.ReflTransGen (fun caller callee => .call caller callee ∈ updates) source target
  /-- The variables used from any name are those of which a use by one of these was added. -/
  reachableVariables : ∀ source variableName, variableName ∈ graph.reachableVariables source ↔
    ∃ function,
      Relation.ReflTransGen (fun caller callee => .call caller callee ∈ updates)
        source function ∧
      .use function variableName ∈ updates

/-- A graph that was empty knows the updates made since. -/
theorem knows_of_updates (updates : List Update) : (empty.afterUpdates updates).Knows updates where
  callees caller callee := by
    rw [mem_callees, mem_calls_afterUpdates]
    exact or_iff_left List.not_mem_nil
  usesOf function variableName := by rw [mem_usesOf, mem_uses_of_empty]
  functions name := by
    rw [mem_functions_afterUpdates, exists_subject_iff]
    exact or_iff_left List.not_mem_nil
  nodup source := nodup_reachable _ source
  reachable source target := by rw [mem_reachable, reaches_iff_reflTransGen, calls_of_empty]
  reachableVariables source variableName := by
    rw [mem_reachableVariables]
    simp only [reaches_iff_reflTransGen, calls_of_empty, mem_uses_of_empty]

/-- A call graph is exact. After any sequence of updates it knows these and nothing else, also about
names that were never added. The graph of whole functions has their calls, their uses and their
names, wherever they stand in the list and even if they share a name. -/
theorem knows_afterUpdates :
    (∀ updates : List Update, (empty.afterUpdates updates).Knows updates) ∧
    ∀ nodes : List Node,
      (∀ caller callee, callee ∈ (ofNodes nodes).callees caller ↔
        ∃ node ∈ nodes, node.name = caller ∧ callee ∈ node.calls) ∧
      (∀ function variableName, variableName ∈ (ofNodes nodes).usesOf function ↔
        ∃ node ∈ nodes, node.name = function ∧ variableName ∈ node.uses) ∧
      ∀ name, name ∈ (ofNodes nodes).functions ↔ ∃ node ∈ nodes, node.name = name := by
  refine ⟨knows_of_updates, fun nodes => ⟨fun caller callee => ?_, fun function variableName => ?_,
    fun name => mem_functions_ofNodes⟩⟩
  · rw [mem_callees, mem_calls_ofNodes]
    simp only [@eq_comm _ caller]
  · rw [mem_usesOf, mem_uses_ofNodes]
    simp only [@eq_comm _ function]

/-- Added in any order and twice, calls lead round a cycle and on to a name that was never added. -/
example :
    (empty.afterUpdates [.call "b" "a", .use "b" "image", .call "a" "b", .call "a" "leaf",
      .call "a" "b", .function "c"]).reachable "a" = ["leaf", "b", "a"] := by
  cbv

end BindingSuite.CallGraph

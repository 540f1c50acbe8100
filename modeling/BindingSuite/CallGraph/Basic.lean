/-! # Call graphs

Functions, the calls between them and the variables they use. A name that is called without being
a function of the graph is a leaf: it leads nowhere.

* `CallGraph.insertFunction`, `insertCall` and `insertUse` build a graph edge by edge,
  `CallGraph.ofNodes` from whole functions;
* `CallGraph.callees` and `CallGraph.usesOf` are the neighbours of a name;
* `mem_calls_ofNodes` and `mem_uses_ofNodes` say what a graph of whole functions holds.

Sets of names are lists here, in which order and repetition mean nothing. -/

namespace BindingSuite

/-- The functions of a program, their calls and their uses of variables. -/
structure CallGraph where
  /-- The names given as functions, as callers or as users. -/
  functions : List String := []
  /-- The calls, as pairs of caller and callee. -/
  calls : List (String × String) := []
  /-- The uses, as pairs of function and variable. -/
  uses : List (String × String) := []

namespace CallGraph

/-- A function as it enters a graph. -/
structure Node where
  /-- The function's name. -/
  name : String
  /-- The functions it calls. -/
  calls : List String
  /-- The variables it uses. -/
  uses : List String

/-- The graph without functions. -/
def empty : CallGraph := {}

/-! ## Construction -/

/-- Makes a name a function. -/
def insertFunction (graph : CallGraph) (name : String) : CallGraph :=
  { graph with functions := graph.functions.insert name }

/-- Adds a call, which makes the caller a function. -/
def insertCall (graph : CallGraph) (caller callee : String) : CallGraph :=
  let graph := graph.insertFunction caller
  { graph with calls := (caller, callee) :: graph.calls }

/-- Adds the use of a variable, which makes the user a function. -/
def insertUse (graph : CallGraph) (function variableName : String) : CallGraph :=
  let graph := graph.insertFunction function
  { graph with uses := (function, variableName) :: graph.uses }

/-- Adds a function with all its calls and uses. -/
def insertNode (graph : CallGraph) (node : Node) : CallGraph :=
  let graph := node.calls.foldl (fun graph callee => graph.insertCall node.name callee)
    (graph.insertFunction node.name)
  node.uses.foldl (fun graph variableName => graph.insertUse node.name variableName) graph

/-- The graph of a list of functions. Functions of one name share their calls and uses. -/
def ofNodes (nodes : List Node) : CallGraph :=
  nodes.foldl insertNode empty

/-! ## Neighbours -/

/-- The names that a function calls. -/
def callees (graph : CallGraph) (name : String) : List String :=
  (graph.calls.filter fun call => call.1 = name).map (·.2)

/-- The variables that a function uses. -/
def usesOf (graph : CallGraph) (name : String) : List String :=
  (graph.uses.filter fun use => use.1 = name).map (·.2)

/-- The callees of a name are the targets of its calls. -/
@[simp] theorem mem_callees {graph : CallGraph} {caller callee : String} :
    callee ∈ graph.callees caller ↔ (caller, callee) ∈ graph.calls := by
  simp only [callees, List.mem_map, List.mem_filter, decide_eq_true_eq]
  constructor
  · rintro ⟨⟨_, _⟩, ⟨call, rfl⟩, rfl⟩
    exact call
  · exact fun call => ⟨(caller, callee), ⟨call, rfl⟩, rfl⟩

/-- The variables of a name are the targets of its uses. -/
@[simp] theorem mem_usesOf {graph : CallGraph} {function variableName : String} :
    variableName ∈ graph.usesOf function ↔ (function, variableName) ∈ graph.uses := by
  simp only [usesOf, List.mem_map, List.mem_filter, decide_eq_true_eq]
  constructor
  · rintro ⟨⟨_, _⟩, ⟨use, rfl⟩, rfl⟩
    exact use
  · exact fun use => ⟨(function, variableName), ⟨use, rfl⟩, rfl⟩

/-! ## What construction adds -/

/-- A function is new or was there. -/
@[simp] theorem mem_functions_insertFunction {graph : CallGraph} {name other : String} :
    other ∈ (graph.insertFunction name).functions ↔ other = name ∨ other ∈ graph.functions := by
  simp [insertFunction]

/-- A function adds no calls. -/
@[simp] theorem calls_insertFunction (graph : CallGraph) (name : String) :
    (graph.insertFunction name).calls = graph.calls := rfl

/-- A function adds no uses. -/
@[simp] theorem uses_insertFunction (graph : CallGraph) (name : String) :
    (graph.insertFunction name).uses = graph.uses := rfl

/-- A call adds itself to the calls. -/
@[simp] theorem calls_insertCall (graph : CallGraph) (caller callee : String) :
    (graph.insertCall caller callee).calls = (caller, callee) :: graph.calls := rfl

/-- A call adds no uses. -/
@[simp] theorem uses_insertCall (graph : CallGraph) (caller callee : String) :
    (graph.insertCall caller callee).uses = graph.uses := rfl

/-- A use adds itself to the uses. -/
@[simp] theorem uses_insertUse (graph : CallGraph) (function variableName : String) :
    (graph.insertUse function variableName).uses = (function, variableName) :: graph.uses := rfl

/-- A use adds no calls. -/
@[simp] theorem calls_insertUse (graph : CallGraph) (function variableName : String) :
    (graph.insertUse function variableName).calls = graph.calls := rfl

/-- A call makes its caller a function. -/
@[simp] theorem mem_functions_insertCall {graph : CallGraph} {caller callee other : String} :
    other ∈ (graph.insertCall caller callee).functions ↔
      other = caller ∨ other ∈ graph.functions :=
  mem_functions_insertFunction

/-- A use makes its user a function. -/
@[simp] theorem mem_functions_insertUse {graph : CallGraph} {function variableName other : String} :
    other ∈ (graph.insertUse function variableName).functions ↔
      other = function ∨ other ∈ graph.functions :=
  mem_functions_insertFunction

/-- The calls of a graph with one more function are its own and the function's. -/
theorem mem_calls_insertNode {graph : CallGraph} {node : Node} {caller callee : String} :
    (caller, callee) ∈ (graph.insertNode node).calls ↔
      (caller = node.name ∧ callee ∈ node.calls) ∨ (caller, callee) ∈ graph.calls := by
  have uses (start : CallGraph) (names : List String) :
      (names.foldl (fun graph variableName => graph.insertUse node.name variableName) start).calls =
        start.calls := by
    induction names generalizing start with
    | nil => rfl
    | cons _ _ ih => rw [List.foldl_cons, ih, calls_insertUse]
  have calls (start : CallGraph) (names : List String) :
      (caller, callee) ∈
          (names.foldl (fun graph callee => graph.insertCall node.name callee) start).calls ↔
        (caller = node.name ∧ callee ∈ names) ∨ (caller, callee) ∈ start.calls := by
    induction names generalizing start with
    | nil => simp
    | cons _ _ ih => grind [calls_insertCall]
  rw [insertNode, uses, calls, calls_insertFunction]

/-- The uses of a graph with one more function are its own and the function's. -/
theorem mem_uses_insertNode {graph : CallGraph} {node : Node} {function variableName : String} :
    (function, variableName) ∈ (graph.insertNode node).uses ↔
      (function = node.name ∧ variableName ∈ node.uses) ∨
        (function, variableName) ∈ graph.uses := by
  have calls (start : CallGraph) (names : List String) :
      (names.foldl (fun graph callee => graph.insertCall node.name callee) start).uses =
        start.uses := by
    induction names generalizing start with
    | nil => rfl
    | cons _ _ ih => rw [List.foldl_cons, ih, uses_insertCall]
  have uses (start : CallGraph) (names : List String) :
      (function, variableName) ∈
          (names.foldl (fun graph name => graph.insertUse node.name name) start).uses ↔
        (function = node.name ∧ variableName ∈ names) ∨ (function, variableName) ∈ start.uses := by
    induction names generalizing start with
    | nil => simp
    | cons _ _ ih => grind [uses_insertUse]
  rw [insertNode, uses, calls, uses_insertFunction]

/-- The calls of the graph of some functions are those of the functions. -/
theorem mem_calls_ofNodes {nodes : List Node} {caller callee : String} :
    (caller, callee) ∈ (ofNodes nodes).calls ↔
      ∃ node ∈ nodes, caller = node.name ∧ callee ∈ node.calls := by
  have fold (start : CallGraph) :
      (caller, callee) ∈ (nodes.foldl insertNode start).calls ↔
        (∃ node ∈ nodes, caller = node.name ∧ callee ∈ node.calls) ∨
          (caller, callee) ∈ start.calls := by
    induction nodes generalizing start with
    | nil => simp
    | cons node rest ih => grind [mem_calls_insertNode]
  simp [ofNodes, fold, empty]

/-- The uses of the graph of some functions are those of the functions. -/
theorem mem_uses_ofNodes {nodes : List Node} {function variableName : String} :
    (function, variableName) ∈ (ofNodes nodes).uses ↔
      ∃ node ∈ nodes, function = node.name ∧ variableName ∈ node.uses := by
  have fold (start : CallGraph) :
      (function, variableName) ∈ (nodes.foldl insertNode start).uses ↔
        (∃ node ∈ nodes, function = node.name ∧ variableName ∈ node.uses) ∨
          (function, variableName) ∈ start.uses := by
    induction nodes generalizing start with
    | nil => simp
    | cons node rest ih => grind [mem_uses_insertNode]
  simp [ofNodes, fold, empty]

end CallGraph

end BindingSuite

import BindingSuite.CallGraph.Basic

/-! # Reachability in call graphs

What calls lead to. A name that was called without being a function can be reached all the same.

* `CallGraph.Reaches` says that calls lead from one name to another, `CallGraph.reachable` lists
  the names that they lead to, and `mem_reachable` says that these are the same;
* `CallGraph.reachableVariables` lists the variables used anywhere there;
* `CallGraph.isRecursive` asks whether one or more calls lead from a name back to it. -/

namespace BindingSuite.CallGraph

/-! ## Searching -/

/-- The calls whose caller has not been seen. Each name with callees that is newly seen takes at
least one of them away, which bounds a search. -/
def pendingCalls (graph : CallGraph) (seen : List String) : List (String × String) :=
  graph.calls.filter fun call => call.1 ∉ seen

/-- Seeing one more name never adds pending calls. -/
theorem length_pendingCalls_cons_le (graph : CallGraph) (name : String) (seen : List String) :
    (graph.pendingCalls (name :: seen)).length ≤ (graph.pendingCalls seen).length := by
  simp only [pendingCalls, ← List.countP_eq_length_filter]
  exact List.countP_mono_left fun call _ => by simp

/-- Seeing a new name that calls something takes pending calls away. -/
theorem length_pendingCalls_cons_lt {graph : CallGraph} {name : String} {seen : List String}
    (isNew : name ∉ seen) (hasCallees : graph.callees name ≠ []) :
    (graph.pendingCalls (name :: seen)).length < (graph.pendingCalls seen).length := by
  obtain ⟨callee, isCallee⟩ := List.exists_mem_of_ne_nil _ hasCallees
  rw [mem_callees] at isCallee
  have split : graph.pendingCalls (name :: seen) =
      (graph.pendingCalls seen).filter fun call => call.1 ≠ name := by
    simp [pendingCalls, List.filter_filter]
  rw [split]
  refine List.length_filter_lt_length_iff_exists.mpr ⟨(name, callee), ?_, by simp⟩
  simp [pendingCalls, isCallee, isNew]

/-- Follows the calls from the pending names and adds every name met to those seen. -/
def explore (graph : CallGraph) (seen : List String) : List String → List String
  | [] => seen
  | name :: pending =>
    if name ∈ seen then graph.explore seen pending
    else graph.explore (name :: seen) (graph.callees name ++ pending)
termination_by pending => ((graph.pendingCalls seen).length, pending.length)
decreasing_by
  · exact Prod.Lex.right _ (by simp)
  · rename_i isNew
    by_cases hasCallees : graph.callees name = []
    · rcases Nat.lt_or_eq_of_le (length_pendingCalls_cons_le graph name seen) with less | equal
      · exact Prod.Lex.left _ _ less
      · rw [equal]
        exact Prod.Lex.right _ (by simp [hasCallees])
    · exact Prod.Lex.left _ _ (length_pendingCalls_cons_lt isNew hasCallees)

/-- The names that calls lead to from a name, the name itself included, each once. -/
def reachable (graph : CallGraph) (name : String) : List String :=
  graph.explore [] [name]

/-- The variables used by a name or by anything that it reaches. -/
def reachableVariables (graph : CallGraph) (name : String) : List String :=
  (graph.reachable name).flatMap graph.usesOf

/-- A name is recursive when one of its callees reaches it. -/
def isRecursive (graph : CallGraph) (name : String) : Bool :=
  (graph.callees name).any fun callee => name ∈ graph.reachable callee

/-! ## What reachability means -/

/-- Any number of calls lead from one name to another. -/
inductive Reaches (graph : CallGraph) (source : String) : String → Prop where
  /-- A name reaches itself. -/
  | refl : graph.Reaches source source
  /-- A name reaches what the names it reaches call. -/
  | tail {caller callee : String} (reaches : graph.Reaches source caller)
      (call : (caller, callee) ∈ graph.calls) : graph.Reaches source callee

/-- Reaching is transitive. -/
theorem Reaches.trans {graph : CallGraph} {first second third : String}
    (left : graph.Reaches first second) (right : graph.Reaches second third) :
    graph.Reaches first third := by
  induction right with
  | refl => exact left
  | tail _ call reaches => exact reaches.tail call

/-- A call goes in front of what its callee reaches. -/
theorem Reaches.head {graph : CallGraph} {caller callee target : String}
    (call : (caller, callee) ∈ graph.calls) (reaches : graph.Reaches callee target) :
    graph.Reaches caller target :=
  (Reaches.refl.tail call).trans reaches

/-- Exploring keeps what was seen and adds what was pending. -/
theorem mem_explore_of_mem {graph : CallGraph} {seen pending : List String} {name : String}
    (member : name ∈ seen ∨ name ∈ pending) : name ∈ graph.explore seen pending := by
  fun_induction explore graph seen pending with
  | case1 seen => simpa using member
  | case2 seen next pending isSeen ih =>
    apply ih
    rcases member with member | member
    · exact .inl member
    · rcases List.mem_cons.mp member with rfl | member
      · exact .inl isSeen
      · exact .inr member
  | case3 seen next pending isNew ih =>
    apply ih
    rcases member with member | member
    · exact .inl (List.mem_cons_of_mem _ member)
    · rcases List.mem_cons.mp member with rfl | member
      · exact .inl List.mem_cons_self
      · exact .inr (List.mem_append_right _ member)

/-- Exploring adds only what pending names reach. -/
theorem reaches_of_mem_explore {graph : CallGraph} {seen pending : List String} {name : String}
    (member : name ∈ graph.explore seen pending) :
    name ∈ seen ∨ ∃ start ∈ pending, graph.Reaches start name := by
  fun_induction explore graph seen pending with
  | case1 seen => exact .inl member
  | case2 seen next pending isSeen ih =>
    rcases ih member with isMember | ⟨start, isPending, reaches⟩
    · exact .inl isMember
    · exact .inr ⟨start, List.mem_cons_of_mem _ isPending, reaches⟩
  | case3 seen next pending isNew ih =>
    rcases ih member with isMember | ⟨start, isPending, reaches⟩
    · rcases List.mem_cons.mp isMember with rfl | isMember
      · exact .inr ⟨name, List.mem_cons_self, .refl⟩
      · exact .inl isMember
    · rcases List.mem_append.mp isPending with isCallee | isPending
      · exact .inr ⟨next, List.mem_cons_self, .head (mem_callees.mp isCallee) reaches⟩
      · exact .inr ⟨start, List.mem_cons_of_mem _ isPending, reaches⟩

/-- Where every callee of a seen name is seen or pending, exploring ends with a set of names that
calls do not leave. -/
theorem closed_explore {graph : CallGraph} {seen pending : List String}
    (closed : ∀ caller ∈ seen, ∀ callee, (caller, callee) ∈ graph.calls →
      callee ∈ seen ∨ callee ∈ pending) :
    ∀ caller ∈ graph.explore seen pending, ∀ callee, (caller, callee) ∈ graph.calls →
      callee ∈ graph.explore seen pending := by
  fun_induction explore graph seen pending with
  | case1 seen => simpa using closed
  | case2 seen next pending isSeen ih =>
    apply ih
    intro caller isMember callee call
    rcases closed caller isMember callee call with isMember | isPending
    · exact .inl isMember
    · rcases List.mem_cons.mp isPending with rfl | isPending
      · exact .inl isSeen
      · exact .inr isPending
  | case3 seen next pending isNew ih =>
    apply ih
    intro caller isMember callee call
    rcases List.mem_cons.mp isMember with rfl | isMember
    · exact .inr (List.mem_append_left _ (mem_callees.mpr call))
    · rcases closed caller isMember callee call with isMember | isPending
      · exact .inl (List.mem_cons_of_mem _ isMember)
      · rcases List.mem_cons.mp isPending with rfl | isPending
        · exact .inl List.mem_cons_self
        · exact .inr (List.mem_append_right _ isPending)

/-- The names listed as reachable are those that calls lead to. -/
@[simp] theorem mem_reachable {graph : CallGraph} {source target : String} :
    target ∈ graph.reachable source ↔ graph.Reaches source target := by
  constructor
  · intro member
    rcases reaches_of_mem_explore member with isSeen | ⟨start, isStart, reaches⟩
    · cases isSeen
    · rwa [List.mem_singleton.mp isStart] at reaches
  · intro reaches
    induction reaches with
    | refl => exact mem_explore_of_mem (.inr List.mem_cons_self)
    | tail _ call member =>
      exact closed_explore (fun _ isSeen => absurd isSeen List.not_mem_nil) _ member _ call

/-- A variable is used from a name when something that the name reaches uses it. -/
theorem mem_reachableVariables {graph : CallGraph} {source variableName : String} :
    variableName ∈ graph.reachableVariables source ↔
      ∃ function, graph.Reaches source function ∧ (function, variableName) ∈ graph.uses := by
  simp [reachableVariables]

/-- A name is recursive when a call leads from it to a name that reaches it. -/
theorem isRecursive_iff {graph : CallGraph} {name : String} :
    graph.isRecursive name = true ↔
      ∃ callee, (name, callee) ∈ graph.calls ∧ graph.Reaches callee name := by
  simp [isRecursive]

end BindingSuite.CallGraph

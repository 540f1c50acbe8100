import BindingSuite.Proofs.Lists
import BindingSuite.Proofs.VerdictRules

/-! # Reports of collisions

Which collisions the verdict lists. The verdict goes through the interface of an entry point with a
table of the places that are taken; what comes out depends on no table.

* `Program.holder?` is the first name at a place of an interface, and `collisions_eq_filterMap` says
  that every entry is reported against the holder of its place;
* `Program.Collides` says that two resources of an entry point are bound at one place, of which the
  first one declared holds it; `exists_collides_of_mem_collisionReasons` says so of every collision
  that the verdict lists;
* `Program.ListsCollisions` says what a complete list of collisions is, and
  `collisionReasons_complete` that the verdict lists them completely. -/

namespace BindingSuite

/-- The place where a resource is bound, as what it amounts to. -/
def Resource.place? (resource : Resource) : Option BindingPoint :=
  resource.point?.map BindingPoint.normal

namespace Program

/-! ## Interfaces -/

/-- The name that holds a place in an interface: that of the first entry there. -/
def holder? (interface : List (String × BindingPoint)) (place : BindingPoint) : Option String :=
  (interface.find? fun entry => entry.2.normal = place).map Prod.fst

/-- What is reported of an entry, given who holds its place: a collision, unless nobody of another
name does. -/
def report? (entryPoint : String) (entry : String × BindingPoint) (holder : Option String) :
    Option Reason :=
  (holder.filter (· ≠ entry.1)).map fun owner => .collision entryPoint owner entry.1 entry.2

section Interface

variable {entryPoint name owner : String} {point place : BindingPoint}
  {owners : List (BindingPoint × String)} {interface : List (String × BindingPoint)}
  {entry : String × BindingPoint}

/-- Where nobody holds the place of an entry, nothing is reported of it. -/
@[simp] theorem report?_none : report? entryPoint entry none = none := rfl

/-- Where somebody holds the place of an entry, a collision is reported unless it is the entry's own
name. -/
theorem report?_some :
    report? entryPoint entry (some owner) =
      if owner = entry.1 then none else some (.collision entryPoint owner entry.1 entry.2) := by
  by_cases same : owner = entry.1 <;> simp [report?, Option.filter, same]

/-- The first entry holds its place, and leaves the others to the rest. -/
theorem holder?_cons :
    holder? ((name, point) :: interface) place =
      if point.normal = place then some name else holder? interface place := by
  rw [holder?, List.find?_cons]
  by_cases same : point.normal = place <;> simp [holder?, same]

/-- An entry at the end holds its place if nobody else does. -/
theorem holder?_append_singleton :
    holder? (interface ++ [(name, point)]) place =
      (holder? interface place).or (if point.normal = place then some name else none) := by
  rw [holder?, List.find?_append, Option.map_or]
  by_cases same : point.normal = place <;> simp [holder?, same]

/-- Nobody holds a place at which there is no entry. -/
theorem holder?_eq_none_iff :
    holder? interface place = none ↔ place ∉ interface.map (·.2.normal) := by
  simp [holder?, List.find?_eq_none]

/-- The first entry at a free place may be entered in the table or left to the interface. -/
theorem lookup_cons_or_holder? (isFree : owners.lookup point.normal = none) :
    (((point.normal, name) :: owners).lookup place).or (holder? interface place) =
      (owners.lookup place).or (holder? ((name, point) :: interface) place) := by
  rw [List.lookup_cons, holder?_cons]
  by_cases same : point.normal = place
  · subst same
    simp [isFree]
  · rw [if_neg same, beq_eq_false_iff_ne.mpr (Ne.symm same)]

/-- An entry at a place with an owner holds nothing. -/
theorem lookup_or_holder?_cons (isOwner : owners.lookup point.normal = some owner) :
    (owners.lookup place).or (holder? ((name, point) :: interface) place) =
      (owners.lookup place).or (holder? interface place) := by
  rw [holder?_cons]
  by_cases same : point.normal = place
  · subst same
    simp [isOwner]
  · rw [if_neg same]

/-- The last entry of an interface is reported after the others. Its place is held by the owner
given, or else by the first entry there. -/
theorem collisions_append_singleton :
    collisions entryPoint owners (interface ++ [entry]) =
      collisions entryPoint owners interface ++
        (report? entryPoint entry
          ((owners.lookup entry.2.normal).or (holder? interface entry.2.normal))).toList := by
  induction interface generalizing owners with
  | nil =>
    obtain ⟨name, point⟩ := entry
    change collisions entryPoint owners [(name, point)] =
      (report? entryPoint (name, point) ((owners.lookup point.normal).or none)).toList
    rw [collisions, Option.or_none]
    split
    · rename_i free
      rw [free]
      rfl
    · rename_i owner isOwner
      rw [isOwner, report?_some]
      split <;> rfl
  | cons first rest ih =>
    obtain ⟨name, point⟩ := first
    rw [List.cons_append, collisions, collisions]
    split
    · rename_i free
      rw [ih, lookup_cons_or_holder? free]
    · rename_i owner isOwner
      rw [ih, lookup_or_holder?_cons isOwner]
      split <;> rfl

/-- Every entry of an interface is reported against the holder of its place in the interface. -/
theorem collisions_eq_filterMap :
    collisions entryPoint [] interface =
      interface.filterMap fun entry =>
        report? entryPoint entry (holder? interface entry.2.normal) := by
  induction interface using List.reverseRecOn with
  | nil => rfl
  | append_singleton interface last ih =>
    obtain ⟨name, point⟩ := last
    have earlier : ∀ entry ∈ interface,
        report? entryPoint entry (holder? (interface ++ [(name, point)]) entry.2.normal) =
          report? entryPoint entry (holder? interface entry.2.normal) := by
      intro entry member
      have held : (holder? interface entry.2.normal).isSome = true := by
        rw [Option.isSome_iff_ne_none, Ne, holder?_eq_none_iff, not_not]
        exact List.mem_map_of_mem member
      rw [holder?_append_singleton, Option.or_of_isSome held]
    -- The last entry may hold its own place, of which nothing is reported.
    have last : report? entryPoint (name, point) (holder? (interface ++ [(name, point)])
        point.normal) = report? entryPoint (name, point) (holder? interface point.normal) := by
      rw [holder?_append_singleton, if_pos rfl]
      cases holder? interface point.normal with
      | none => rw [Option.none_or, report?_some, if_pos rfl, report?_none]
      | some owner => rfl
    rw [collisions_append_singleton, ih, List.filterMap_append, List.filterMap_congr earlier,
      List.lookup_nil, Option.none_or, List.filterMap_cons, List.filterMap_nil, last]
    cases report? entryPoint (name, point) (holder? interface point.normal) <;> rfl

/-- The holder of a place is the name of an entry. -/
theorem mem_names_of_holder?_eq_some (held : holder? interface place = some owner) :
    owner ∈ interface.map Prod.fst := by
  obtain ⟨entry, isFirst, rfl⟩ := Option.map_eq_some_iff.mp held
  exact List.mem_map_of_mem (List.mem_of_find?_eq_some isFirst)

/-- Among entries of distinct names no reason is repeated. -/
theorem nodup_collisions (distinct : (interface.map Prod.fst).Nodup) :
    (collisions entryPoint [] interface).Nodup := by
  rw [collisions_eq_filterMap]
  refine (distinct.of_map Prod.fst).filterMap fun entry other reason isReason isOther => ?_
  obtain ⟨owner, -, rfl⟩ := Option.map_eq_some_iff.mp isReason
  obtain ⟨holder, -, same⟩ := Option.map_eq_some_iff.mp isOther
  rw [Reason.collision.injEq] at same
  exact Prod.ext same.2.2.1.symm same.2.2.2.symm

/-- Among entries of distinct names, all are reported except for one at each place. -/
theorem length_collisions_add_card (distinct : (interface.map Prod.fst).Nodup) :
    (collisions entryPoint [] interface).length + (interface.map (·.2.normal)).toFinset.card =
      interface.length := by
  induction interface using List.reverseRecOn with
  | nil => rfl
  | append_singleton interface last ih =>
    rw [List.map_append, List.nodup_append] at distinct
    obtain ⟨before, -, apart⟩ := distinct
    have places : (interface ++ [last]).map (·.2.normal) =
        interface.map (·.2.normal) ++ [last.2.normal] := List.map_append
    rw [collisions_append_singleton, List.length_append, List.length_append, ← ih before, places,
      List.toFinset_append, List.toFinset_cons, List.toFinset_nil, Finset.union_insert,
      Finset.union_empty, List.lookup_nil, Option.none_or]
    cases isHolder : holder? interface last.2.normal with
    | none =>
      -- The last entry has a place of its own.
      have free : last.2.normal ∉ (interface.map (·.2.normal)).toFinset := by
        rw [List.mem_toFinset]
        exact holder?_eq_none_iff.mp isHolder
      rw [Finset.card_insert_of_notMem free]
      rfl
    | some owner =>
      -- The last entry is reported, since no earlier one has its name.
      have other : owner ≠ last.1 :=
        apart owner (mem_names_of_holder?_eq_some isHolder) last.1 (List.mem_singleton_self _)
      have taken : last.2.normal ∈ (interface.map (·.2.normal)).toFinset := by
        rw [List.mem_toFinset]
        by_contra free
        rw [holder?_eq_none_iff.mpr free] at isHolder
        cases isHolder
      rw [Finset.insert_eq_of_mem taken, report?_some, if_neg other]
      change _ + 1 + _ = _ + 1
      omega

end Interface

/-! ## Collisions of a program -/

/-- Two resources in the interface of an entry point are bound at one place, which the first of them
holds: of the resources in the interface it is the first one declared at this place. -/
structure Collides (program : Program) (entryPoint : EntryPoint) (holder other : Resource)
    (point : BindingPoint) : Prop where
  /-- The holder belongs to the interface. -/
  holder_inside : program.InInterface entryPoint holder
  /-- The other resource belongs to the interface. -/
  other_inside : program.InInterface entryPoint other
  /-- The holder is bound at the place. -/
  holder_point : ∃ place, holder.point? = some place ∧ place.normal = point.normal
  /-- So is the other resource. -/
  other_point : other.point? = some point
  /-- The holder is declared before the other resource, and no resource of the interface that is
  bound at the place is declared before the holder. -/
  order : ∃ before middle after,
    program.resources = before ++ holder :: (middle ++ other :: after) ∧
      ∀ earlier ∈ before, program.InInterface entryPoint earlier →
        ∀ place ∈ earlier.point?, place.normal ≠ point.normal

/-- The bound resources in the interface of an entry point, in the order of their declarations. -/
def boundInterface (program : Program) (entryPoint : EntryPoint) : List Resource :=
  program.resources.filter fun resource =>
    resource.name ∈ program.callGraph.reachableVariables entryPoint.name ∧
      resource.place?.isSome = true

/-- The first resource in the interface of an entry point that is bound at a place. -/
def firstAt? (program : Program) (entryPoint : EntryPoint) (place : BindingPoint) :
    Option Resource :=
  program.resources.find? fun resource =>
    resource.name ∈ program.callGraph.reachableVariables entryPoint.name ∧
      resource.place? = some place

/-- The reasons that collisions at one entry point give. -/
def reasonsAt (program : Program) (entryPoint : EntryPoint) : List Reason :=
  collisions entryPoint.name [] (program.interfaceOf entryPoint.name)

/-- The reason that a resource of an entry point gives, if it collides with an earlier one. -/
def reasonOf? (program : Program) (entryPoint : EntryPoint) (resource : Resource) : Option Reason :=
  (program.interfaceEntry? entryPoint.name resource).bind fun entry =>
    report? entryPoint.name entry
      (holder? (program.interfaceOf entryPoint.name) entry.2.normal)

section Reports

variable {program : Program} {entryPoint : EntryPoint} {resource holder other : Resource}
  {point place : BindingPoint} {reason : Reason}

/-- The bound resources of an interface belong to it and are bound. -/
theorem mem_boundInterface :
    resource ∈ program.boundInterface entryPoint ↔
      program.InInterface entryPoint resource ∧ resource.place?.isSome = true := by
  simp only [boundInterface, List.mem_filter, decide_eq_true_eq, inInterface_iff, and_assoc]

/-- The entries of an interface stand for its bound resources. -/
theorem forall₂_boundInterface :
    List.Forall₂ (fun resource entry => entry.1 = resource.name ∧
        resource.point? = some entry.2)
      (program.boundInterface entryPoint) (program.interfaceOf entryPoint.name) := by
  have bound : (fun resource : Resource => decide (resource.name ∈
        program.callGraph.reachableVariables entryPoint.name ∧ resource.place?.isSome = true)) =
      fun resource => (program.interfaceEntry? entryPoint.name resource).isSome := by
    funext resource
    by_cases used : resource.name ∈ program.callGraph.reachableVariables entryPoint.name <;>
      simp [Resource.place?, used, interfaceEntry?]
  rw [boundInterface, bound]
  exact (forall₂_filter_filterMap _ _).imp fun _ _ pair =>
    (interfaceEntry?_eq_some_iff.mp pair.2).2

/-- The names in an interface are those of its bound resources. -/
theorem map_fst_interfaceOf :
    (program.interfaceOf entryPoint.name).map Prod.fst =
      (program.boundInterface entryPoint).map (·.name) := by
  exact (map_eq_map_of_forall₂ (fun _ _ pair => pair.1.symm) forall₂_boundInterface).symm

/-- The places in an interface are those of its bound resources. -/
theorem map_place_interfaceOf :
    ((program.interfaceOf entryPoint.name).map (·.2.normal)).map some =
      (program.boundInterface entryPoint).map Resource.place? := by
  rw [List.map_map]
  refine (map_eq_map_of_forall₂ (fun resource entry pair => ?_) forall₂_boundInterface).symm
  rw [Resource.place?, pair.2]
  rfl

/-- In an interface, a place is held by the first resource there. -/
theorem holder?_interfaceOf :
    holder? (program.interfaceOf entryPoint.name) place =
      (program.firstAt? entryPoint place).map (·.name) := by
  change holder? (program.resources.filterMap (program.interfaceEntry? entryPoint.name)) place = _
  have bound : (fun resource : Resource => (program.interfaceEntry? entryPoint.name resource).any
        fun entry => entry.2.normal = place) =
      fun resource => decide (resource.name ∈
        program.callGraph.reachableVariables entryPoint.name ∧ resource.place? = some place) := by
    funext resource
    by_cases used : resource.name ∈ program.callGraph.reachableVariables entryPoint.name <;>
      cases isPoint : resource.point? <;> simp [Resource.place?, used, isPoint, interfaceEntry?]
  rw [holder?, List.find?_filterMap, bound, ← firstAt?]
  cases isFirst : program.firstAt? entryPoint place with
  | none => rfl
  | some resource =>
    obtain ⟨used, isPlace⟩ : resource.name ∈
        program.callGraph.reachableVariables entryPoint.name ∧ resource.place? = some place := by
      simpa using List.find?_some isFirst
    obtain ⟨point, isPoint, -⟩ := Option.map_eq_some_iff.mp isPlace
    simp [used, isPoint, interfaceEntry?]

/-- The first resource at a place is in the interface and bound there, and no earlier one is. -/
theorem firstAt?_eq_some_iff :
    program.firstAt? entryPoint place = some resource ↔
      program.InInterface entryPoint resource ∧ resource.place? = some place ∧
        ∃ before after, program.resources = before ++ resource :: after ∧
          ∀ earlier ∈ before, program.InInterface entryPoint earlier →
            earlier.place? ≠ some place := by
  rw [firstAt?, List.find?_eq_some_iff_append]
  simp only [decide_eq_true_eq, Bool.not_eq_true', decide_eq_false_iff_not, not_and,
    inInterface_iff]
  constructor
  · rintro ⟨⟨used, isPlace⟩, before, after, split, unlike⟩
    refine ⟨⟨by simp [split], used⟩, isPlace, before, after, split, ?_⟩
    exact fun earlier member inside => unlike earlier member inside.2
  · rintro ⟨⟨-, used⟩, isPlace, before, after, split, unlike⟩
    refine ⟨⟨used, isPlace⟩, before, after, split, fun earlier member uses => ?_⟩
    exact unlike earlier member ⟨by simp [split, member], uses⟩

/-- The reasons at an entry point are those of its resources, in the order of their declarations. -/
theorem reasonsAt_eq_filterMap :
    program.reasonsAt entryPoint = program.resources.filterMap (program.reasonOf? entryPoint) := by
  rw [reasonsAt, collisions_eq_filterMap]
  exact List.filterMap_filterMap

/-- A resource gives a reason when the first one at its place has another name. -/
theorem reasonOf?_eq_some_iff :
    program.reasonOf? entryPoint resource = some reason ↔
      resource.name ∈ program.callGraph.reachableVariables entryPoint.name ∧
        ∃ holder point, resource.point? = some point ∧
          program.firstAt? entryPoint point.normal = some holder ∧
          holder.name ≠ resource.name ∧
          reason = .collision entryPoint.name holder.name resource.name point := by
  constructor
  · intro isReason
    obtain ⟨⟨name, point⟩, isEntry, isReport⟩ := Option.bind_eq_some_iff.mp isReason
    obtain ⟨used, rfl, isPoint⟩ := interfaceEntry?_eq_some_iff.mp isEntry
    rw [holder?_interfaceOf] at isReport
    cases isHolder : program.firstAt? entryPoint point.normal with
    | none => simp [isHolder] at isReport
    | some holder =>
      rw [isHolder, Option.map_some, report?_some] at isReport
      split at isReport
      · cases isReport
      · rename_i other
        exact ⟨used, holder, point, isPoint, isHolder, other, (Option.some.inj isReport).symm⟩
  · rintro ⟨used, holder, point, isPoint, isHolder, other, rfl⟩
    have isEntry : program.interfaceEntry? entryPoint.name resource = some (resource.name, point) :=
      interfaceEntry?_eq_some_iff.mpr ⟨used, rfl, isPoint⟩
    rw [reasonOf?, isEntry, Option.bind_some, holder?_interfaceOf, isHolder, Option.map_some,
      report?_some, if_neg other]

/-- A resource collides with the first one at its place, if this has another name. -/
theorem Collides.of_firstAt? (member : resource ∈ program.resources)
    (used : resource.name ∈ program.callGraph.reachableVariables entryPoint.name)
    (isPoint : resource.point? = some point)
    (isHolder : program.firstAt? entryPoint point.normal = some holder)
    (other : holder.name ≠ resource.name) :
    program.Collides entryPoint holder resource point := by
  obtain ⟨inside, isPlace, before, after, split, unlike⟩ := firstAt?_eq_some_iff.mp isHolder
  have isInside : program.InInterface entryPoint resource := inInterface_iff.mpr ⟨member, used⟩
  have isThere : resource.place? = some point.normal := by rw [Resource.place?, isPoint]; rfl
  -- Being bound at the place, the resource comes neither before the holder nor as the holder.
  have later : resource ∈ after := by
    rw [split, List.mem_append, List.mem_cons] at member
    rcases member with front | rfl | back
    · exact absurd isThere (unlike resource front isInside)
    · exact absurd rfl other
    · exact back
  obtain ⟨middle, rest, rfl⟩ := List.append_of_mem later
  refine ⟨inside, isInside, Option.map_eq_some_iff.mp isPlace, isPoint, before, middle, rest, split,
    fun earlier front isInside place hasPlace same => unlike earlier front isInside ?_⟩
  exact Option.map_eq_some_iff.mpr ⟨place, hasPlace, same⟩

/-- A resource that gives a reason collides with an earlier one. -/
theorem exists_collides_of_reasonOf? (member : resource ∈ program.resources)
    (isReason : program.reasonOf? entryPoint resource = some reason) :
    ∃ holder point, program.Collides entryPoint holder resource point ∧
      reason = .collision entryPoint.name holder.name resource.name point := by
  obtain ⟨used, holder, point, isPoint, isHolder, other, rfl⟩ := reasonOf?_eq_some_iff.mp isReason
  exact ⟨holder, point, .of_firstAt? member used isPoint isHolder other, rfl⟩

/-- A collision that the verdict lists is one of the program. -/
theorem exists_collides_of_mem_collisionReasons (member : reason ∈ program.collisionReasons) :
    ∃ entryPoint ∈ program.entryPoints, ∃ holder other point,
      reason = .collision entryPoint.name holder.name other.name point ∧
        program.Collides entryPoint holder other point := by
  obtain ⟨entryPoint, isEntryPoint, member⟩ := List.mem_flatMap.mp member
  rw [← reasonsAt, reasonsAt_eq_filterMap] at member
  obtain ⟨resource, isResource, isReason⟩ := List.mem_filterMap.mp member
  obtain ⟨holder, point, collides, rfl⟩ := exists_collides_of_reasonOf? isResource isReason
  exact ⟨entryPoint, isEntryPoint, holder, resource, point, rfl, collides⟩

/-! ## Complete lists of reasons -/

/-- A resource in the interface of an entry point is bound where an earlier one in the interface is
bound already. -/
structure IsContested (program : Program) (entryPoint : EntryPoint) (resource : Resource) :
    Prop where
  /-- The resource belongs to the interface. -/
  inside : program.InInterface entryPoint resource
  /-- The resource is bound. -/
  bound : resource.place?.isSome = true
  /-- An earlier resource belongs to the interface and is bound at the same place. -/
  preceded : ∃ before after, program.resources = before ++ resource :: after ∧
    ∃ earlier ∈ before, program.InInterface entryPoint earlier ∧
      earlier.place? = resource.place?

/-- What a complete list of the collisions at an entry point is. -/
structure ListsCollisions (program : Program) (entryPoint : EntryPoint) (reasons : List Reason) :
    Prop where
  /-- In the order of their declarations, every contested resource has one reason, which blames it
  together with the holder of its place. -/
  contested : ∃ resources, resources.Sublist program.resources ∧
    (∀ resource, resource ∈ resources ↔ program.IsContested entryPoint resource) ∧
    List.Forall₂ (fun resource reason => ∃ holder point,
      program.Collides entryPoint holder resource point ∧
        reason = .collision entryPoint.name holder.name resource.name point) resources reasons
  /-- No reason is repeated. -/
  nodup : reasons.Nodup
  /-- There are as many reasons as bound resources in the interface beyond one for each place. -/
  length : reasons.length +
      ((program.boundInterface entryPoint).map Resource.place?).toFinset.card =
    (program.boundInterface entryPoint).length

/-- A resource that collides with an earlier one is contested. -/
theorem Collides.isContested (collides : program.Collides entryPoint holder other point) :
    program.IsContested entryPoint other := by
  obtain ⟨before, middle, after, split, -⟩ := collides.order
  have isPlace : other.place? = some point.normal := by
    rw [Resource.place?, collides.other_point]
    rfl
  refine ⟨collides.other_inside, by rw [isPlace]; rfl, before ++ holder :: middle, after,
    by simp [split], holder, by simp, collides.holder_inside, ?_⟩
  rw [isPlace]
  exact Option.map_eq_some_iff.mpr collides.holder_point

/-- The first resource at the place of a contested one is declared before it. -/
theorem IsContested.exists_firstAt? (contested : program.IsContested entryPoint resource) :
    ∃ point holder before after, resource.point? = some point ∧
      program.firstAt? entryPoint point.normal = some holder ∧
      program.resources = before ++ resource :: after ∧ holder ∈ before := by
  obtain ⟨before, after, split, earlier, isEarlier, inside, samePlace⟩ := contested.preceded
  obtain ⟨place, isPlace⟩ := Option.isSome_iff_exists.mp contested.bound
  obtain ⟨point, isPoint, rfl⟩ := Option.map_eq_some_iff.mp isPlace
  -- The search finds the earlier resource unless it finds one before that.
  have found : (before.find? fun resource => decide (resource.name ∈
        program.callGraph.reachableVariables entryPoint.name ∧
      resource.place? = some point.normal)).isSome = true :=
    List.find?_isSome.mpr ⟨earlier, isEarlier,
      decide_eq_true ⟨(inInterface_iff.mp inside).2, samePlace.trans isPlace⟩⟩
  obtain ⟨holder, isFirst⟩ := Option.isSome_iff_exists.mp found
  refine ⟨point, holder, before, after, isPoint, ?_, split, List.mem_of_find?_eq_some isFirst⟩
  rw [firstAt?, split, List.find?_append, isFirst, Option.some_or]

/-- Where the names of resources are distinct, the contested ones are those that give a reason. -/
theorem isSome_reasonOf?_iff (distinct : (program.resources.map (·.name)).Nodup)
    (member : resource ∈ program.resources) :
    (program.reasonOf? entryPoint resource).isSome = true ↔
      program.IsContested entryPoint resource := by
  constructor
  · intro isReason
    obtain ⟨reason, isReason⟩ := Option.isSome_iff_exists.mp isReason
    obtain ⟨holder, point, collides, -⟩ := exists_collides_of_reasonOf? member isReason
    exact collides.isContested
  · intro contested
    obtain ⟨point, holder, before, after, isPoint, isHolder, split, isBefore⟩ :=
      contested.exists_firstAt?
    have other : holder.name ≠ resource.name := by
      rw [split, List.map_append, List.nodup_append] at distinct
      exact distinct.2.2 _ (List.mem_map_of_mem isBefore) _ (List.mem_map_of_mem List.mem_cons_self)
    rw [reasonOf?_eq_some_iff.mpr ⟨(inInterface_iff.mp contested.inside).2, holder, point, isPoint,
      isHolder, other, rfl⟩]
    rfl

/-- Where the names of resources are distinct, so are those in an interface. -/
theorem nodup_interfaceOf (distinct : (program.resources.map (·.name)).Nodup) :
    ((program.interfaceOf entryPoint.name).map Prod.fst).Nodup := by
  rw [map_fst_interfaceOf]
  exact distinct.sublist (List.filter_sublist.map _)

/-- Where the names of resources are distinct, the collisions at an entry point are listed
completely. -/
theorem listsCollisions_reasonsAt (distinct : (program.resources.map (·.name)).Nodup) :
    program.ListsCollisions entryPoint (program.reasonsAt entryPoint) := by
  refine ⟨⟨program.resources.filter fun resource =>
    (program.reasonOf? entryPoint resource).isSome, List.filter_sublist, fun resource => ?_, ?_⟩,
    nodup_collisions (nodup_interfaceOf distinct), ?_⟩
  · rw [List.mem_filter]
    constructor
    · exact fun member => (isSome_reasonOf?_iff distinct member.1).mp member.2
    · intro contested
      have member := (inInterface_iff.mp contested.inside).1
      exact ⟨member, (isSome_reasonOf?_iff distinct member).mpr contested⟩
  · rw [reasonsAt_eq_filterMap]
    exact (forall₂_filter_filterMap _ _).imp fun _ _ pair =>
      exists_collides_of_reasonOf? pair.1 pair.2
  · rw [← map_place_interfaceOf, forall₂_boundInterface.length_eq, List.card_toFinset,
      List.dedup_map_of_injective (Option.some_injective _), List.length_map, ← List.card_toFinset]
    exact length_collisions_add_card (nodup_interfaceOf distinct)

end Reports

end Program

end BindingSuite

import BindingSuite.Proofs.Agreement
import BindingSuite.Proofs.Recognition
import BindingSuite.Proofs.Validity

/-! # Soundness of the verdict

Which of the programs that the verdict accepts are accepted by the compiler too. The verdict does
not look at the signs of indices, nor at the address spaces of plain variables.

* `Wgsl.HasStrayMinus` finds a minus in a text that belongs to no token and to no comment, and
  `answer_of_hasStrayMinus` says that such a text is rejected;
* `Program.unsigned` takes the signs from all indices, so that programs whose indices are arbitrary
  integers are those that are well-formed without signs;
* `hasStrayMinus_text` finds the minus in the text of a program with a negative index;
* `accepted_answer_iff_of_accepted_verdict` says which accepted programs the compiler accepts. -/

namespace BindingSuite

namespace Wgsl

/-! ## Stray minuses -/

/-- A text has a minus that starts no arrow, and before which no stroke could start a comment. -/
def HasStrayMinus (text : List Char) : Prop :=
  ∃ front next back, text = front ++ '-' :: next :: back ∧ '/' ∉ front ∧ next ≠ '>'

/-- A stray minus remains one behind a text without strokes. -/
theorem HasStrayMinus.append_left {front text : List Char} (free : '/' ∉ front)
    (stray : HasStrayMinus text) : HasStrayMinus (front ++ text) := by
  obtain ⟨before, next, back, rfl, freeBefore, notArrow⟩ := stray
  refine ⟨front ++ before, next, back, (List.append_assoc ..).symm, ?_, notArrow⟩
  rw [List.mem_append, not_or]
  exact ⟨free, freeBefore⟩

/-- A stray minus remains one before any text. -/
theorem HasStrayMinus.append_right {text : List Char} (stray : HasStrayMinus text)
    (back : List Char) : HasStrayMinus (text ++ back) := by
  obtain ⟨before, next, after, rfl, free, notArrow⟩ := stray
  exact ⟨before, next, after ++ back, by simp, free, notArrow⟩

/-- A stray minus in one of several texts remains one in all of them together, when the texts before
have no strokes. -/
theorem hasStrayMinus_intercalate {separator text : String} {before : List String}
    (blank : '/' ∉ separator.toList) (free : ∀ given ∈ before, '/' ∉ given.toList)
    (stray : HasStrayMinus text.toList) (after : List String) :
    HasStrayMinus (separator.intercalate (before ++ text :: after)).toList := by
  induction before with
  | nil =>
    cases after with
    | nil => simpa using stray
    | cons next after =>
      rw [List.nil_append, String.intercalate_cons_cons, String.toList_append,
        String.toList_append]
      exact (stray.append_right _).append_right _
  | cons first before ih =>
    obtain ⟨freeFirst, others⟩ := List.forall_mem_cons.mp free
    obtain ⟨second, rest, split⟩ :=
      List.exists_cons_of_ne_nil (List.append_ne_nil_of_right_ne_nil before
        (List.cons_ne_nil text after))
    have freeFront : '/' ∉ first.toList ++ separator.toList := by
      rw [List.mem_append, not_or]
      exact ⟨freeFirst, blank⟩
    have inRest := (ih others).append_left freeFront
    rwa [split, ← String.toList_append, ← String.toList_append, ← String.intercalate_cons_cons,
      ← split] at inRest

/-- A minus in a piece behind no stroke is the first half of an arrow. -/
theorem Piece.eq_of_text_eq_append {piece : Piece} (proper : piece.IsProper)
    {front back : List Char} (split : piece.text = front ++ '-' :: back) (free : '/' ∉ front) :
    back = ['>'] := by
  have inText : '-' ∈ piece.text := by simp [split]
  cases piece with
  | space character =>
    obtain rfl : '-' = character := List.mem_singleton.mp inText
    exact absurd proper (by decide)
  | comment body =>
    -- The comment starts with a stroke, which would stand before the minus.
    cases front with
    | nil => exact absurd (List.cons.inj split).1 (by decide)
    | cons first front =>
      obtain ⟨rfl, -⟩ := List.cons.inj split
      exact absurd List.mem_cons_self free
  | token given =>
    by_cases wordlike : given.isWordlike = true
    · exact absurd (Token.forall_isWordRest proper wordlike _ inText) (by decide)
    · cases given with
      | arrow =>
        rcases front with _ | ⟨first, _ | ⟨second, front⟩⟩
        · exact (List.cons.inj split).2.symm
        · exact absurd (List.cons.inj (List.cons.inj split).2).1 (by decide)
        · exact absurd split (by simp [Piece.text, Token.text])
      | keyword | name | numeral => exact absurd rfl wordlike
      | _ => exact absurd inText (by decide)

/-- No layout of tokens has a stray minus. -/
theorem not_hasStrayMinus_text {layout : Layout} (proper : layout.IsProper) :
    ¬HasStrayMinus layout.text := by
  rintro ⟨front, next, back, split, free, notArrow⟩
  -- By induction on the pieces, of which one after the other is taken off the front.
  induction layout generalizing front with
  | nil => simp at split
  | cons piece rest ih =>
    obtain ⟨isProper, restProper⟩ := Layout.isProper_cons.mp proper
    rw [Layout.text_cons] at split
    -- The minus is in the rest of the layout, or else in its first piece.
    rcases List.append_eq_append_iff.mp split with
      ⟨between, frontSplit, restSplit⟩ | ⟨between, pieceSplit, backSplit⟩
    · refine ih restProper between restSplit fun member => free ?_
      rw [frontSplit]
      exact List.mem_append_right _ member
    · cases between with
      | nil => exact ih restProper [] backSplit.symm List.not_mem_nil
      | cons minus between =>
        obtain ⟨rfl, behind⟩ := List.cons.inj backSplit
        obtain rfl := Piece.eq_of_text_eq_append isProper pieceSplit free
        exact notArrow (List.cons.inj behind).1

/-- A text with a stray minus is rejected. -/
theorem answer_of_hasStrayMinus {source : String} (stray : HasStrayMinus source.toList) :
    ∃ given, answer source = .ok given ∧ given.accepted = false := by
  -- Without a tree there is a syntax error, and no numeral is looked at.
  have noTree (tree : Tree) : (scan source.toList).toTree ≠ .ok tree := by
    intro found
    obtain ⟨layout, proper, spelled, -⟩ := Module.exists_layout_of_toTree found
    rw [← spelled] at stray
    exact not_hasStrayMinus_text proper stray
  rw [answer, Module.ofSource]
  cases found : (scan source.toList).toTree with
  | error position => exact ⟨_, rfl, rfl⟩
  | ok tree => exact absurd found (noTree tree)

end Wgsl

/-! ## Signs -/

namespace Index

/-- An index is a negative number. -/
def IsNegative : Index → Prop
  | number value => value < 0
  | _ => False

instance : DecidablePred IsNegative
  | number value => inferInstanceAs (Decidable (value < 0))
  | truth _ | word _ | kind _ => .isFalse id

/-- An index without its sign. -/
def unsigned : Index → Index
  | number value => number value.natAbs
  | index => index

variable {index : Index}

/-- An index that is a number without its sign is an integer with no more digits than the limit. -/
theorem exists_number (natural : index.unsigned.IsNatural) :
    ∃ value : Int, index = number value ∧ value.natAbs.repr.length ≤ Text.digitLimit := by
  obtain ⟨value, isNumber, short⟩ := natural
  cases index with
  | number given =>
    obtain rfl : given.natAbs = value := Int.natCast_inj.mp (number.inj isNumber)
    exact ⟨given, rfl, short⟩
  | _ => cases isNumber

/-- An index that is a number without its sign is one already, unless it is negative. -/
theorem isNatural_of_unsigned (natural : index.unsigned.IsNatural)
    (notNegative : ¬index.IsNegative) : index.IsNatural := by
  obtain ⟨value, rfl, short⟩ := exists_number natural
  exact ⟨value.natAbs, congrArg number (Int.natAbs_of_nonneg (Int.not_lt.mp notNegative)).symm,
    short⟩

/-- A number is not negative. -/
theorem not_isNegative_of_isNatural (natural : index.IsNatural) : ¬index.IsNegative := by
  obtain ⟨value, rfl, -⟩ := natural
  exact Int.not_lt.mpr (Int.natCast_nonneg value)

/-- The text of an integer has no stroke. -/
theorem not_mem_text (natural : index.unsigned.IsNatural) : '/' ∉ index.text.toList := by
  have inDigits (value : Nat) : '/' ∉ value.repr.toList := fun member =>
    absurd (Wgsl.forall_isDigit_repr value _ member) (by decide)
  obtain ⟨value, rfl, -⟩ := exists_number natural
  cases value with
  | ofNat value => exact inDigits value
  | negSucc value =>
    rw [text, Int.repr, String.toList_append, List.mem_append, not_or]
    exact ⟨by decide, inDigits _⟩

/-- The text of a negative index has a stray minus, which is before a digit. -/
theorem hasStrayMinus_text (negative : index.IsNegative) :
    Wgsl.HasStrayMinus index.text.toList := by
  cases index with
  | number value =>
    obtain ⟨magnitude, rfl⟩ := Int.eq_negSucc_of_lt_zero negative
    have nonempty : (magnitude + 1).repr.toList ≠ [] := by
      rw [Nat.toList_repr]
      exact Nat.toDigits_ne_nil
    obtain ⟨first, rest, digits⟩ := List.exists_cons_of_ne_nil nonempty
    have isDigit := Wgsl.forall_isDigit_repr (magnitude + 1) first (by simp [digits])
    refine ⟨[], first, rest, ?_, List.not_mem_nil, ?_⟩
    · rw [text, Int.repr, String.toList_append, digits]
      rfl
    · rintro rfl
      exact absurd isDigit (by decide)
  | _ => exact negative.elim

end Index

/-! ## Texts of resources -/

section Attributes

variable {group binding : Option Index} (free : ∀ index ∈ group.toList, '/' ∉ index.text.toList)

include free

/-- Binding attributes have no stroke when their indices have none. -/
theorem not_mem_attributesText (bindingFree : ∀ index ∈ binding.toList, '/' ∉ index.text.toList) :
    '/' ∉ (attributesText group binding).toList := by
  cases group <;> cases binding <;> simp_all [attributesText]

/-- Binding attributes have a stray minus when one of their indices does. -/
theorem hasStrayMinus_attributesText {index : Index}
    (member : index ∈ group.toList ++ binding.toList)
    (stray : Wgsl.HasStrayMinus index.text.toList) :
    Wgsl.HasStrayMinus (attributesText group binding).toList := by
  have inAttribute (name : String) (noStroke : '/' ∉ name.toList) :
      Wgsl.HasStrayMinus ("@" ++ name ++ "(" ++ index.text ++ ") ").toList := by
    rw [String.toList_append, String.toList_append]
    refine (stray.append_left ?_).append_right _
    simpa using noStroke
  rcases List.mem_append.mp member with inGroup | inBinding
  · obtain rfl := Option.mem_toList.mp inGroup
    rw [attributesText.eq_def, String.toList_append]
    exact (inAttribute "group" (by decide)).append_right _
  · obtain rfl := Option.mem_toList.mp inBinding
    rw [attributesText.eq_def, String.toList_append]
    refine (inAttribute "binding" (by decide)).append_left ?_
    cases group <;> simp_all

end Attributes

namespace Resource

variable {resource : Resource}

/-- The indices of a resource. -/
def indices (resource : Resource) : List Index :=
  resource.group.toList ++ resource.binding.toList

/-- A resource without the signs of its indices. -/
def unsigned (resource : Resource) : Resource :=
  { resource with
    group := resource.group.map Index.unsigned
    binding := resource.binding.map Index.unsigned }

/-- The indices of a resource are numbers without their signs when the resource is well-formed
without them. -/
theorem isNatural_unsigned (wellFormed : resource.unsigned.IsWellFormed) :
    ∀ index ∈ resource.indices, index.unsigned.IsNatural := by
  intro index member
  rcases List.mem_append.mp member with inGroup | inBinding
  · exact wellFormed.group _ (Option.mem_map_of_mem _ (Option.mem_toList.mp inGroup))
  · exact wellFormed.binding _ (Option.mem_map_of_mem _ (Option.mem_toList.mp inBinding))

/-- A resource that is well-formed without signs is so itself exactly when no index is negative. -/
theorem isWellFormed_iff_of_unsigned (wellFormed : resource.unsigned.IsWellFormed) :
    resource.IsWellFormed ↔ ∀ index ∈ resource.indices, ¬index.IsNegative := by
  have natural := isNatural_unsigned wellFormed
  constructor
  · intro declared index member
    rcases List.mem_append.mp member with inGroup | inBinding
    · exact Index.not_isNegative_of_isNatural
        (declared.group index (Option.mem_toList.mp inGroup))
    · exact Index.not_isNegative_of_isNatural
        (declared.binding index (Option.mem_toList.mp inBinding))
  · intro notNegative
    refine ⟨wellFormed.name, fun index inGroup => ?_, fun index inBinding => ?_⟩
    · have member := List.mem_append_left resource.binding.toList (Option.mem_toList.mpr inGroup)
      exact Index.isNatural_of_unsigned (natural index member) (notNegative index member)
    · have member := List.mem_append_right resource.group.toList (Option.mem_toList.mpr inBinding)
      exact Index.isNatural_of_unsigned (natural index member) (notNegative index member)

/-- Behind its attributes, the text of a resource has no stroke. -/
theorem not_mem_bareText (isName : IsIdentifier resource.name) :
    '/' ∉ (bareText resource.name resource.kind.storeType resource.kind.addressSpace?).toList := by
  have inName : '/' ∉ resource.name.toList := fun member =>
    absurd (Wgsl.forall_isWordRest_of_isName isName _ member) (by decide)
  have inType : '/' ∉ resource.kind.storeType.toList := by
    cases resource.kind <;> decide
  have inKeyword : '/' ∉ (variableKeyword resource.kind.addressSpace?).toList := by
    cases resource.kind <;> decide
  simp [bareText, inName, inType, inKeyword]

/-- The text of a resource has no stroke. -/
theorem not_mem_text (wellFormed : resource.unsigned.IsWellFormed) :
    '/' ∉ resource.text.toList := by
  have inIndices : ∀ index ∈ resource.indices, '/' ∉ index.text.toList := fun index member =>
    Index.not_mem_text (isNatural_unsigned wellFormed index member)
  rw [indices, List.forall_mem_append] at inIndices
  have inAttributes := not_mem_attributesText inIndices.1 inIndices.2
  rw [text, declarationText_eq, String.toList_append, List.mem_append, not_or]
  exact ⟨inAttributes, not_mem_bareText wellFormed.name.1⟩

/-- The text of a resource with a negative index has a stray minus. -/
theorem hasStrayMinus_text (wellFormed : resource.unsigned.IsWellFormed) {index : Index}
    (member : index ∈ resource.indices) (negative : index.IsNegative) :
    Wgsl.HasStrayMinus resource.text.toList := by
  have free : ∀ index ∈ resource.group.toList, '/' ∉ index.text.toList := fun index inGroup =>
    Index.not_mem_text (isNatural_unsigned wellFormed index (List.mem_append_left _ inGroup))
  have stray := hasStrayMinus_attributesText free member (Index.hasStrayMinus_text negative)
  rw [text, declarationText_eq, String.toList_append]
  exact stray.append_right _

/-- Declarations that start with those of resources have a stray minus when an index of a resource
is negative. -/
theorem hasStrayMinus_declarations {resources : List Resource}
    (wellFormed : ∀ declared ∈ resources, declared.unsigned.IsWellFormed)
    (member : resource ∈ resources) {index : Index} (isIndex : index ∈ resource.indices)
    (negative : index.IsNegative) (others : List String) :
    Wgsl.HasStrayMinus ("\n".intercalate (resources.map Resource.text ++ others)).toList := by
  obtain ⟨before, after, rfl⟩ := List.append_of_mem member
  have free : ∀ text ∈ before.map Resource.text, '/' ∉ text.toList :=
    List.forall_mem_map.mpr fun declared isBefore =>
      not_mem_text (wellFormed declared (List.mem_append_left _ isBefore))
  have stray := hasStrayMinus_text (wellFormed resource member) isIndex negative
  rw [List.map_append, List.map_cons, List.append_assoc, List.cons_append]
  exact Wgsl.hasStrayMinus_intercalate (by decide) free stray _

end Resource

/-- A text has a stray minus when its first section does. -/
theorem hasStrayMinus_sections {declarations : List String}
    (stray : Wgsl.HasStrayMinus ("\n".intercalate declarations).toList) (others : List String) :
    Wgsl.HasStrayMinus
      ("\n\n".intercalate (sectionText declarations ++ others) ++ "\n").toList := by
  cases declarations with
  | nil =>
    obtain ⟨front, next, back, split, -⟩ := stray
    simp at split
  | cons first rest =>
    rw [String.toList_append]
    exact (Wgsl.hasStrayMinus_intercalate (by decide) (List.forall_mem_nil _) stray
      others).append_right _

/-! ## Unsigned programs -/

/-- A plain variable without the signs of its indices. -/
def ModuleVariable.unsigned (declared : ModuleVariable) : ModuleVariable :=
  { declared with
    group := declared.group.map Index.unsigned
    binding := declared.binding.map Index.unsigned }

/-- A local variable without the signs of its indices. -/
def LocalVariable.unsigned (declared : LocalVariable) : LocalVariable :=
  { declared with
    group := declared.group.map Index.unsigned
    binding := declared.binding.map Index.unsigned }

/-- A statement without signs. -/
def Statement.unsigned : Statement → Statement
  | declare declared => declare declared.unsigned
  | statement => statement

/-- A function without signs. -/
def Function.unsigned (function : Function) : Function :=
  { function with body := function.body.map Statement.unsigned }

/-- An entry point without signs. -/
def EntryPoint.unsigned (entryPoint : EntryPoint) : EntryPoint :=
  ⟨entryPoint.toFunction.unsigned, entryPoint.stage⟩

/-- A program without signs. -/
def Program.unsigned (program : Program) : Program :=
  { resources := program.resources.map Resource.unsigned
    globals := program.globals.map ModuleVariable.unsigned
    helpers := program.helpers.map Function.unsigned
    entryPoints := program.entryPoints.map EntryPoint.unsigned }

/-- A function whose local variables keep their rules has no indices, hence no signs. -/
theorem Function.isWellFormed_of_unsigned {function : Function}
    (wellFormed : function.unsigned.IsWellFormed)
    (rules : ∀ declared ∈ function.locals, declared.KeepsRules) : function.IsWellFormed := by
  refine ⟨wellFormed.name, fun statement member => ?_⟩
  have unsigned := wellFormed.body _ (List.mem_map_of_mem member)
  -- Only declarations could have lost a sign, but their rules leave them without indices.
  cases statement with
  | declare declared =>
    obtain ⟨name, addressSpace, type, -, -⟩ : declared.unsigned.IsWellFormed := unsigned
    obtain ⟨noGroup, noBinding, -, -⟩ := rules declared (mem_locals.mpr member)
    exact ⟨name, addressSpace, type, by simp [noGroup], by simp [noBinding]⟩
  | use name => exact unsigned
  | call name => exact unsigned
  | unknown => exact unsigned

namespace Program

variable {program : Program}

section Unsigned

variable (wellFormed : program.unsigned.IsWellFormed)

include wellFormed

/-- What a program that keeps the rules declares besides its resources has no indices, hence no
signs. -/
theorem isWellFormed_withoutResources (rules : program.KeepsRules) :
    IsWellFormed { program with resources := [] } where
  resources := List.forall_mem_nil _
  globals := fun declared member => by
    have unsigned := wellFormed.globals _ (List.mem_map_of_mem member)
    obtain ⟨noGroup, noBinding⟩ := rules.globals declared member
    exact ⟨unsigned.name, unsigned.addressSpace, unsigned.type, by simp [noGroup],
      by simp [noBinding]⟩
  helpers := fun helper member =>
    Function.isWellFormed_of_unsigned (wellFormed.helpers _ (List.mem_map_of_mem member))
      (rules.locals helper (mem_functions.mpr (.inl member)))
  entryPoints := fun entryPoint member => by
    have unsigned := wellFormed.entryPoints _ (List.mem_map_of_mem member)
    have isFunction := mem_functions.mpr (.inr ⟨entryPoint, member, rfl⟩)
    exact ⟨Function.isWellFormed_of_unsigned unsigned.function (rules.locals _ isFunction),
      unsigned.stage⟩

/-! ## Negative indices -/

/-- A program that keeps the rules and has a negative index has a text, which the compiler
rejects. -/
theorem exists_answer_rejected_of_negative (rules : program.KeepsRules) {resource : Resource}
    (member : resource ∈ program.resources) {index : Index} (isIndex : index ∈ resource.indices)
    (negative : index.IsNegative) :
    ∃ source answer, program.text = .ok source ∧ Wgsl.answer source = .ok answer ∧
      answer.accepted = false := by
  have bare := isWellFormed_withoutResources wellFormed rules
  obtain ⟨helperTexts, areHelperTexts, -⟩ := helpers_write bare
  obtain ⟨entryTexts, areEntryTexts, -⟩ := Phrase.exists_texts fun entryPoint member =>
    EntryPoint.writes (bare.entryPoints entryPoint member)
  have unsigned : ∀ declared ∈ program.resources, declared.unsigned.IsWellFormed :=
    fun declared isDeclared => wellFormed.resources _ (List.mem_map_of_mem isDeclared)
  -- The resources make up the first section, together with the plain variables.
  have inResources := Resource.hasStrayMinus_declarations unsigned member isIndex negative
    (program.globals.map ModuleVariable.text)
  have stray := hasStrayMinus_sections inResources (sectionText helperTexts ++ entryTexts)
  obtain ⟨answer, isAnswer, rejected⟩ := Wgsl.answer_of_hasStrayMinus stray
  refine ⟨_, answer, ?_, isAnswer, rejected⟩
  rw [Program.text, areHelperTexts, areEntryTexts, ← List.append_assoc]
  rfl

end Unsigned

/-! ## Soundness -/

/-- The image of a well-formed program that keeps the rules breaks none exactly when the plain
variables lie in address spaces for data. -/
theorem breaches_image_eq_nil_iff_spaces (declared : program.IsWellFormed)
    (free : ∀ function ∈ program.functions, function.name ≠ "vec4f") (rules : program.KeepsRules) :
    program.image.breaches = [] ↔ ∀ declared ∈ program.globals,
      declared.addressSpace = "private" ∨ declared.addressSpace = "workgroup" := by
  constructor
  · intro unbroken plain member
    have isGlobal : plain.image ∈ program.image.globals :=
      List.mem_append_right _ (List.mem_map_of_mem member)
    have keeps := (Wgsl.Module.breaches_eq_nil_iff.mp unbroken).globals plain.image isGlobal
    -- In another address space the variable would be a resource, but it has no attributes.
    have proper := declared.globals plain member
    obtain ⟨noGroup, -⟩ :=
      (hasNone_bindingImage_iff proper.group proper.binding).mpr (rules.globals plain member)
    have notResource : ¬plain.image.BindsResource := by
      intro isResource
      obtain ⟨hasGroup, -⟩ := keeps.resource isResource
      exact absurd (hasGroup.symm.trans noGroup) (by decide)
    obtain ⟨-, -, holdsData⟩ := keeps.plain notResource
    exact holdsData.imp Option.some.inj Option.some.inj
  · exact fun spaces => (breaches_image_eq_nil_iff declared free spaces).mpr rules

/-- A program without functions keeps the rules when the names and the binding attributes of its
variables do. -/
theorem keepsRules_of_no_functions (noHelpers : program.helpers = [])
    (noEntryPoints : program.entryPoints = []) (names : program.variableNames.Nodup)
    (resources : ∀ resource ∈ program.resources,
      resource.group.isSome = true ∧ resource.binding.isSome = true)
    (globals : ∀ declared ∈ program.globals, declared.group = none ∧ declared.binding = none) :
    program.KeepsRules := by
  have noFunctions : program.functions = [] := by
    rw [functions, noHelpers, noEntryPoints, List.map_nil, List.append_nil]
  refine ⟨?_, ?_, ?_, ?_, resources, globals, ?_, ?_⟩
  · rw [declaredNames, noFunctions, List.map_nil, List.append_nil]
    exact names
  · simp [noFunctions]
  · simp [noFunctions]
  · simp [noFunctions]
  · simp [noFunctions]
  · simp [noEntryPoints]

/-- How far the verdict is sound. A program with integers for indices that the verdict accepts, and
of which no function is called `vec4f`, has a text, on which the compiler has an answer. The answer
accepts exactly when no resource has a negative index and all plain variables lie in address spaces
for data. -/
theorem accepted_answer_iff_of_accepted_verdict (wellFormed : program.unsigned.IsWellFormed)
    (free : ∀ function ∈ program.functions, function.name ≠ "vec4f")
    (accepted : program.verdict.accepted = true) :
    ∃ source answer, program.text = .ok source ∧ Wgsl.answer source = .ok answer ∧
      (answer.accepted = true ↔
        (∀ resource ∈ program.resources, ∀ index ∈ resource.indices, ¬index.IsNegative) ∧
        ∀ declared ∈ program.globals,
          declared.addressSpace = "private" ∨ declared.addressSpace = "workgroup") := by
  have rules : program.KeepsRules :=
    reasons_verdict_eq_nil_iff.mp (Verdict.accepted_iff.mp accepted)
  by_cases signless : ∀ resource ∈ program.resources, ∀ index ∈ resource.indices, ¬index.IsNegative
  · -- Without negative indices the program itself is well-formed.
    have bare := isWellFormed_withoutResources wellFormed rules
    have declared : program.IsWellFormed := by
      refine ⟨fun resource member => ?_, bare.globals, bare.helpers, bare.entryPoints⟩
      have unsigned := wellFormed.resources _ (List.mem_map_of_mem member)
      exact (Resource.isWellFormed_iff_of_unsigned unsigned).mpr (signless resource member)
    obtain ⟨source, answer, isText, isAnswer, unbroken⟩ := exists_answer_accepted_iff_image declared
    refine ⟨source, answer, isText, isAnswer, ?_⟩
    rw [unbroken, breaches_image_eq_nil_iff_spaces declared free rules, and_iff_right signless]
  · obtain ⟨resource, member, index, isIndex, negative⟩ :
        ∃ resource ∈ program.resources, ∃ index ∈ resource.indices, index.IsNegative := by
      simpa using signless
    obtain ⟨source, answer, isText, isAnswer, rejected⟩ :=
      exists_answer_rejected_of_negative wellFormed rules member isIndex negative
    refine ⟨source, answer, isText, isAnswer, ?_⟩
    rw [rejected]
    exact iff_of_false Bool.false_ne_true fun both => signless both.1

/-- A compute entry point that reads a buffer, beside a private variable, is accepted by the verdict
and by the compiler. -/
theorem accepted_answer_of_accepted_verdict_buffer :
    let program : Program :=
      ⟨[⟨"buffer", .uniform, some 0, some 1⟩], [⟨"scratch", "private", "f32", none, none⟩], [],
        [⟨⟨"main", [.use "buffer"]⟩, "compute"⟩]⟩
    program.verdict.accepted = true ∧
      ∃ source answer, program.text = .ok source ∧ Wgsl.answer source = .ok answer ∧
        answer.accepted = true := by
  intro program
  have buffer : Resource.IsWellFormed ⟨"buffer", .uniform, some 0, some 1⟩ :=
    ⟨by decide, Index.isNatural_of_mem_some 0 (by decide),
      Index.isNatural_of_mem_some 1 (by decide)⟩
  have scratch : ModuleVariable.IsWellFormed ⟨"scratch", "private", "f32", none, none⟩ :=
    ⟨by decide, by decide, ⟨⟨"f32", []⟩, by decide, rfl⟩, by simp, by simp⟩
  have main : EntryPoint.IsWellFormed ⟨⟨"main", [.use "buffer"]⟩, "compute"⟩ :=
    ⟨⟨by decide, List.forall_mem_singleton.mpr (by decide : IsPlainName "buffer")⟩, .compute, rfl⟩
  have wellFormed : program.unsigned.IsWellFormed :=
    ⟨List.forall_mem_singleton.mpr buffer, List.forall_mem_singleton.mpr scratch,
      List.forall_mem_nil _, List.forall_mem_singleton.mpr main⟩
  have callsNothing (caller callee : String) : ¬program.Calls caller callee := by
    rintro ⟨function, member, -, call⟩
    obtain rfl := List.mem_singleton.mp member
    simp at call
  have usesBuffer : ∀ user name, program.Uses user name → name ∈ program.variableNames := by
    rintro user name ⟨function, member, -, reads⟩
    obtain rfl := List.mem_singleton.mp member
    rw [Function.readsName_iff_of_noLocals (by simp)] at reads
    obtain rfl : name = "buffer" := by simpa using reads
    decide
  have accepted : program.verdict.accepted = true := by
    rw [accepted_verdict_iff_isValid, isValid_iff]
    refine ⟨by decide, usesBuffer,
      fun caller callee call => absurd call (callsNothing caller callee),
      acyclic_of_no_calls callsNothing, by decide, by decide,
      fun function member declared declares => ?_, ?_⟩
    · obtain rfl := List.mem_singleton.mp member
      simp at declares
    · rintro name - first isFirst second isSecond different
      obtain rfl := List.mem_singleton.mp isFirst
      obtain rfl := List.mem_singleton.mp isSecond
      exact absurd rfl different
  obtain ⟨source, answer, isText, isAnswer, accepts⟩ :=
    accepted_answer_iff_of_accepted_verdict wellFormed
      (List.forall_mem_singleton.mpr (by decide)) accepted
  exact ⟨accepted, source, answer, isText, isAnswer, accepts.mpr
    ⟨List.forall_mem_singleton.mpr (by decide), List.forall_mem_singleton.mpr (.inl rfl)⟩⟩

/-- The verdict accepts a buffer with a negative group and a plain variable in the address space of
uniform buffers, each of which the compiler rejects. -/
theorem rejected_answer_of_accepted_verdict :
    let negative : Program := ⟨[⟨"buffer", .uniform, some (.number (-1)), some 0⟩], [], [], []⟩
    let outside : Program := ⟨[], [⟨"constants", "uniform", "f32", none, none⟩], [], []⟩
    (negative.unsigned.IsWellFormed ∧ negative.verdict.accepted = true ∧
      ∃ source answer, negative.text = .ok source ∧ Wgsl.answer source = .ok answer ∧
        answer.accepted = false) ∧
    (outside.unsigned.IsWellFormed ∧ outside.verdict.accepted = true ∧
      ∃ source answer, outside.text = .ok source ∧ Wgsl.answer source = .ok answer ∧
        answer.accepted = false) := by
  intro negative outside
  constructor
  · have buffer : Resource.IsWellFormed ⟨"buffer", .uniform, some 1, some 0⟩ :=
      ⟨by decide, Index.isNatural_of_mem_some 1 (by decide),
        Index.isNatural_of_mem_some 0 (by decide)⟩
    have wellFormed : negative.unsigned.IsWellFormed :=
      ⟨List.forall_mem_singleton.mpr buffer, List.forall_mem_nil _, List.forall_mem_nil _,
        List.forall_mem_nil _⟩
    have rules : negative.KeepsRules :=
      keepsRules_of_no_functions rfl rfl (by decide) (by decide) (by decide)
    refine ⟨wellFormed, ?_, exists_answer_rejected_of_negative wellFormed rules
      List.mem_cons_self List.mem_cons_self (by decide)⟩
    rw [Verdict.accepted_iff, reasons_verdict_eq_nil_iff]
    exact rules
  · have constants : ModuleVariable.IsWellFormed ⟨"constants", "uniform", "f32", none, none⟩ :=
      ⟨by decide, by decide, ⟨⟨"f32", []⟩, by decide, rfl⟩, by simp, by simp⟩
    have wellFormed : outside.IsWellFormed :=
      ⟨List.forall_mem_nil _, List.forall_mem_singleton.mpr constants, List.forall_mem_nil _,
        List.forall_mem_nil _⟩
    have rules : outside.KeepsRules :=
      keepsRules_of_no_functions rfl rfl (by decide) (by decide) (by decide)
    obtain ⟨source, answer, isText, isAnswer, unbroken⟩ :=
      exists_answer_accepted_iff_image wellFormed
    refine ⟨wellFormed, ?_, source, answer, isText, isAnswer, ?_⟩
    · rw [Verdict.accepted_iff, reasons_verdict_eq_nil_iff]
      exact rules
    · rw [← Bool.not_eq_true, unbroken,
        breaches_image_eq_nil_iff_spaces wellFormed (List.forall_mem_nil _) rules]
      decide

end Program

end BindingSuite
